import ParallelN64.Replacement.Provider

/-!
# Sampled lookups and provider statistics

Lookups dereference stored positions without a bounds check, and the family
lookup assumes that the family table and the sampled table agree. Both are
justified here from the tables being indexes of the entries, together with the
counts that the statistics report.
-/

namespace ParallelN64.Replacement

open ParallelN64.Core

def Provider.entryAt (p : Provider) (index : Nat) : Entry := p.entries.getD index {}

/-- The sampled entry of a query under a candidate format size and selector. -/
def Provider.findMatching (p : Provider) (query : SampledFamilyLookupKey)
    (candidateFormatsize : UInt16) (candidateSelector : UInt64) : Option Entry :=
  (p.sampledIndex.lookup
    { query with formatsize := candidateFormatsize, selectorChecksum64 := candidateSelector }).map
      p.entryAt

/-- The sampled lookup: the selector at the exact then the generic format size, and
after it the zero selector in the same order. -/
def Provider.findSampledEntry (p : Provider) (query : SampledFamilyLookupKey)
    (selectorChecksum64 : UInt64) : Option Entry :=
  (if selectorChecksum64 ≠ 0 then
    p.findMatching query query.formatsize selectorChecksum64 <|>
      p.findMatching query 0 selectorChecksum64
  else none) <|> p.findMatching query query.formatsize 0 <|> p.findMatching query 0 0

def pushUnique {α : Type} [DecidableEq α] (values : List α) (value : α) : List α :=
  if value ∈ values then values else values ++ [value]

/-- The positions of the exact family of a query, or else of its generic family. -/
def Provider.activeSampledFamily (p : Provider) (query : SampledFamilyLookupKey) :
    Option (List Nat) :=
  p.sampledFamilyIndex.lookup query <|>
    p.sampledFamilyIndex.lookup { query with formatsize := 0 }

/-- The one selector of the active family, with its ordered-surface flag, as the family
lookup determines it before it reads the sampled table. -/
def Provider.singletonSampledFamilySelector (p : Provider) (query : SampledFamilyLookupKey)
    (allowOrderedSurfaceSelectors : Bool) : Option (UInt64 × Bool) :=
  match p.activeSampledFamily query with
  | none => none
  | some activeFamily =>
    match activeFamily.foldl
      (fun selectors index => pushUnique selectors (p.entryAt index).selectorChecksum64) [] with
    | [selected] =>
      let orderedSurfaceSingleton := selected != 0 && isOrderedSurfaceSelector selected
      if orderedSurfaceSingleton && !allowOrderedSurfaceSelectors then none
      else some (selected, orderedSurfaceSingleton)
    | _ => none

/-- The entry of a family with a single selector, with that selector and whether it is an
ordered-surface one. -/
def Provider.findSingletonSampledFamilyEntry (p : Provider) (query : SampledFamilyLookupKey)
    (allowOrderedSurfaceSelectors : Bool) : Option (Entry × UInt64 × Bool) :=
  match p.singletonSampledFamilySelector query allowOrderedSurfaceSelectors with
  | none => none
  | some (selected, orderedSurfaceSingleton) =>
    match p.findSampledEntry query selected with
    | none => none
    | some entry => some (entry, selected, orderedSurfaceSingleton)

/-- The counters reported for a provider. -/
structure ReplacementProviderStats where
  entryCount : UInt32 := 0
  nativeSampledEntryCount : UInt32 := 0
  compatEntryCount : UInt32 := 0
  sampledIndexCount : UInt32 := 0
  sampledDuplicateKeyCount : UInt32 := 0
  sampledDuplicateEntryCount : UInt32 := 0
  sampledFamilyCount : UInt32 := 0
  compatLow32FamilyCount : UInt32 := 0
  sourcePhrbEntryCount : UInt32 := 0
  deriving DecidableEq, Repr

/-- The bytes of `.phrb`. -/
def phrbSuffix : Bytes := [0x2e, 0x70, 0x68, 0x72, 0x62]

/-- Count one entry by its class and by its source file. -/
def ReplacementProviderStats.countEntry (stats : ReplacementProviderStats) (entry : Entry) :
    ReplacementProviderStats :=
  let stats := if entry.hasNativeSampledIdentity then
      { stats with nativeSampledEntryCount := stats.nativeSampledEntryCount + 1 }
    else { stats with compatEntryCount := stats.compatEntryCount + 1 }
  if phrbSuffix <:+: entry.sourcePath then
    { stats with sourcePhrbEntryCount := stats.sourcePhrbEntryCount + 1 }
  else stats

/-- The statistics: table sizes, the sum of the duplicate counters, and entry counts. -/
def Provider.getStats (p : Provider) : ReplacementProviderStats :=
  p.entries.foldl ReplacementProviderStats.countEntry
    { entryCount := UInt32.ofNat p.entries.length
      sampledIndexCount := UInt32.ofNat p.sampledIndex.keys.length
      sampledDuplicateKeyCount := UInt32.ofNat p.sampledDuplicateIndex.keys.length
      sampledFamilyCount := UInt32.ofNat p.sampledFamilyIndex.keys.length
      compatLow32FamilyCount := UInt32.ofNat p.compatChecksumLow32Index.keys.length
      sampledDuplicateEntryCount := p.sampledDuplicateIndex.total }

def Provider.nativeCount (p : Provider) : Nat := p.entries.countP Entry.hasNativeSampledIdentity

theorem mem_foldl_pushUnique {α β : Type} [DecidableEq β] (f : α → β) (l : List α) (acc : List β)
    (b : β) :
    b ∈ l.foldl (fun values a => pushUnique values (f a)) acc ↔ b ∈ acc ∨ ∃ a ∈ l, f a = b := by
  induction l generalizing acc with
  | nil => simp
  | cons a l ih =>
    have hpush : b ∈ pushUnique acc (f a) ↔ b ∈ acc ∨ f a = b := by
      unfold pushUnique
      split
      next hmem =>
        constructor
        · exact Or.inl
        · rintro (h | rfl)
          · exact h
          · exact hmem
      next => simp [eq_comm]
    rw [List.foldl_cons, ih, hpush]
    simp only [List.mem_cons, exists_eq_or_imp, or_assoc]

variable {p : Provider} {query : SampledFamilyLookupKey}

theorem Provider.entryAt_of_getElem? {i : Nat} {e : Entry} (h : p.entries[i]? = some e) :
    p.entryAt i = e := by
  rw [Provider.entryAt, List.getD_eq_getElem?_getD, h, Option.getD_some]

theorem Provider.Indexed.findMatching_isSome (h : p.Indexed) {i : Nat}
    (hi : i ∈ positions Entry.sampledFamilyKey p.entries query) :
    (p.findMatching query query.formatsize (p.entryAt i).selectorChecksum64).isSome = true := by
  obtain ⟨e, he, hk⟩ := mem_positions.mp hi
  rw [Provider.entryAt_of_getElem? he]
  unfold Entry.sampledFamilyKey at hk
  by_cases hn : e.hasNativeSampledIdentity = true
  · rw [if_pos hn, Option.some.injEq] at hk
    subst hk
    have hkey : e.sampledKey = some e.makeSampledLookupKey := if_pos hn
    have hmem : e.makeSampledLookupKey ∈ p.sampledIndex :=
      (h.sampled.mem_iff _).mpr ⟨e, List.mem_of_getElem? he, hkey⟩
    rw [Provider.findMatching, Option.isSome_map]
    exact AList.lookup_isSome.mpr hmem
  · rw [if_neg hn] at hk
    cases hk

theorem Provider.Indexed.activeSampledFamily_eq (h : p.Indexed) {activeFamily : List Nat}
    (ha : p.activeSampledFamily query = some activeFamily) :
    activeFamily = positions Entry.sampledFamilyKey p.entries query ∨
      activeFamily = positions Entry.sampledFamilyKey p.entries { query with formatsize := 0 } := by
  unfold Provider.activeSampledFamily at ha
  cases hx : p.sampledFamilyIndex.lookup query with
  | some exact =>
    rw [hx] at ha
    obtain rfl : exact = activeFamily := Option.some.inj ha
    exact Or.inl (h.family.of_lookup hx)
  | none =>
    rw [hx] at ha
    exact Or.inr (h.family.of_lookup ha)

theorem Provider.Indexed.findMatching_of_singleton (h : p.Indexed) {allow : Bool}
    {selected : UInt64} {ordered : Bool}
    (hs : p.singletonSampledFamilySelector query allow = some (selected, ordered)) :
    (p.findMatching query query.formatsize selected).isSome = true ∨
      (p.findMatching query 0 selected).isSome = true := by
  unfold Provider.singletonSampledFamilySelector at hs
  cases ha : p.activeSampledFamily query with
  | none =>
    rw [ha] at hs
    cases hs
  | some activeFamily =>
    rw [ha] at hs
    dsimp only at hs
    split at hs
    next sel hfold =>
      have hsel : sel = selected := by
        split at hs
        next => cases hs
        next => exact (Prod.mk.inj (Option.some.inj hs)).1
      subst hsel
      have hmem : sel ∈ activeFamily.foldl
          (fun selectors index => pushUnique selectors (p.entryAt index).selectorChecksum64) [] := by
        rw [hfold]
        exact List.mem_singleton_self sel
      rw [mem_foldl_pushUnique] at hmem
      obtain hnil | ⟨i, hi, rfl⟩ := hmem
      · cases hnil
      · obtain rfl | rfl := h.activeSampledFamily_eq ha
        · exact Or.inl (h.findMatching_isSome hi)
        · exact Or.inr (h.findMatching_isSome hi)
    next => cases hs

theorem Provider.findSampledEntry_isSome {selector : UInt64}
    (h : (p.findMatching query query.formatsize selector).isSome = true ∨
      (p.findMatching query 0 selector).isSome = true) :
    (p.findSampledEntry query selector).isSome = true := by
  unfold Provider.findSampledEntry
  by_cases hz : selector = 0
  · subst hz
    obtain h | h := h <;> simp [h]
  · obtain h | h := h <;> simp [h, hz]

theorem ReplacementProviderStats.countEntry_native (stats : ReplacementProviderStats) (e : Entry) :
    (stats.countEntry e).nativeSampledEntryCount =
      stats.nativeSampledEntryCount + if e.hasNativeSampledIdentity then 1 else 0 := by
  unfold ReplacementProviderStats.countEntry
  by_cases hn : e.hasNativeSampledIdentity = true <;>
    by_cases hp : phrbSuffix <:+: e.sourcePath <;> simp [hn, hp]

theorem ReplacementProviderStats.countEntry_frame (stats : ReplacementProviderStats) (e : Entry) :
    (stats.countEntry e).sampledIndexCount = stats.sampledIndexCount ∧
      (stats.countEntry e).sampledDuplicateEntryCount = stats.sampledDuplicateEntryCount := by
  unfold ReplacementProviderStats.countEntry
  by_cases hn : e.hasNativeSampledIdentity = true <;>
    by_cases hp : phrbSuffix <:+: e.sourcePath <;> simp [hn, hp]

theorem ReplacementProviderStats.foldl_countEntry (es : List Entry)
    (stats : ReplacementProviderStats) :
    (es.foldl countEntry stats).nativeSampledEntryCount =
        stats.nativeSampledEntryCount + UInt32.ofNat (es.countP Entry.hasNativeSampledIdentity) ∧
      (es.foldl countEntry stats).sampledIndexCount = stats.sampledIndexCount ∧
      (es.foldl countEntry stats).sampledDuplicateEntryCount =
        stats.sampledDuplicateEntryCount := by
  induction es generalizing stats with
  | nil => simp
  | cons e es ih =>
    obtain ⟨hn, hi, hd⟩ := ih (stats.countEntry e)
    obtain ⟨hi', hd'⟩ := stats.countEntry_frame e
    refine ⟨?_, hi.trans hi', hd.trans hd'⟩
    rw [List.foldl_cons, hn, stats.countEntry_native, List.countP_cons, add_assoc]
    congr 1
    by_cases he : e.hasNativeSampledIdentity = true
    · rw [if_pos he, if_pos he, UInt32.ofNat_add]
      exact add_comm _ _
    · rw [if_neg he, if_neg he, zero_add, Nat.add_zero]

theorem Provider.getStats_nativeSampledEntryCount (p : Provider) :
    p.getStats.nativeSampledEntryCount = UInt32.ofNat p.nativeCount := by
  rw [Provider.getStats, (ReplacementProviderStats.foldl_countEntry _ _).1]
  exact zero_add _

theorem Provider.getStats_sampledIndexCount (p : Provider) :
    p.getStats.sampledIndexCount = UInt32.ofNat p.sampledIndex.keys.length := by
  rw [Provider.getStats, (ReplacementProviderStats.foldl_countEntry _ _).2.1]

theorem Provider.getStats_sampledDuplicateEntryCount (p : Provider) :
    p.getStats.sampledDuplicateEntryCount = p.sampledDuplicateIndex.total := by
  rw [Provider.getStats, (ReplacementProviderStats.foldl_countEntry _ _).2.2]

/-- Sampled keys and duplicate counters together account for the native entries. -/
structure Provider.Balanced (p : Provider) : Prop where
  /-- There are no more keys than native entries. -/
  le : p.sampledIndex.keys.length ≤ p.nativeCount
  /-- The keys and the counters add up in the arithmetic of the counters. -/
  total : UInt32.ofNat p.sampledIndex.keys.length + p.sampledDuplicateIndex.total =
    UInt32.ofNat p.nativeCount

theorem Provider.balanced_empty (enabled : Bool) (budget : Nat) :
    Provider.Balanced { enabled := enabled, memoryBudgetBytes := budget } where
  le := Nat.le_refl 0
  total := zero_add _

theorem Provider.Balanced.addEntry (h : p.Balanced) (e : Entry) : (p.addEntry e).Balanced := by
  have hcount : (p.addEntry e).nativeCount =
      p.nativeCount + if e.hasNativeSampledIdentity then 1 else 0 := by
    rw [Provider.nativeCount, Provider.addEntry_entries, List.countP_append, List.countP_singleton]
    rfl
  cases he : e.hasNativeSampledIdentity with
  | false =>
    simp only [he, Bool.false_eq_true, if_false, Nat.add_zero] at hcount
    constructor
    · rw [hcount, p.addEntry_compat e he]
      exact h.le
    · rw [hcount, p.addEntry_compat e he]
      exact h.total
  | true =>
    simp only [he, if_true] at hcount
    have hle := h.le
    have htotal := h.total
    obtain ⟨hk, hr⟩ | ⟨active, hk, _, hr⟩ | ⟨active, hk, _, hr⟩ :=
      Provider.indexSampled_cases { p with
        entries := p.entries ++ [e]
        nativeChecksumIndex := p.nativeChecksumIndex.push e.checksum64 p.entries.length }
        p.entries.length e
    · have hkeys := Table.length_keys_insert_of_notMem p.sampledIndex p.entries.length
        (AList.lookup_eq_none.mp hk)
      constructor
      · rw [hcount, p.addEntry_native e he, hr, hkeys]
        omega
      · rw [hcount, p.addEntry_native e he, hr, hkeys, UInt32.ofNat_add, UInt32.ofNat_add,
          ← htotal]
        ac_rfl
    · have hkeys := Table.length_keys_insert_of_mem p.sampledIndex p.entries.length
        (AList.lookup_isSome.mp (Option.isSome_of_eq_some hk))
      constructor
      · rw [hcount, p.addEntry_native e he, hr, hkeys]
        omega
      · rw [hcount, p.addEntry_native e he, hr, hkeys, Table.total_tick, UInt32.ofNat_add,
          ← htotal]
        ac_rfl
    · constructor
      · rw [hcount, p.addEntry_native e he, hr]
        exact Nat.le_succ_of_le hle
      · rw [hcount, p.addEntry_native e he, hr, Table.total_tick, UInt32.ofNat_add, ← htotal]
        ac_rfl

theorem Provider.run_balanced (ops : List Op) : (Provider.run ops).Balanced := by
  unfold Provider.run
  induction ops using List.reverseRecOn with
  | nil => exact Provider.balanced_empty _ _
  | append_singleton ops op ih =>
    rw [List.foldl_append]
    cases op with
    | addEntry e => exact ih.addEntry e
    | clear => exact Provider.balanced_empty _ _

theorem Provider.Balanced.getStats_add (h : p.Balanced) :
    p.getStats.sampledIndexCount + p.getStats.sampledDuplicateEntryCount =
      p.getStats.nativeSampledEntryCount := by
  rw [p.getStats_sampledIndexCount, p.getStats_sampledDuplicateEntryCount,
    p.getStats_nativeSampledEntryCount]
  exact h.total

theorem Provider.Balanced.getStats_add_toNat (h : p.Balanced) (hsmall : p.nativeCount < 2 ^ 32) :
    p.getStats.sampledIndexCount.toNat + p.getStats.sampledDuplicateEntryCount.toNat =
      p.getStats.nativeSampledEntryCount.toNat := by
  have hle := h.le
  have hkeys : p.getStats.sampledIndexCount.toNat = p.sampledIndex.keys.length := by
    rw [p.getStats_sampledIndexCount]
    exact UInt32.toNat_ofNat_of_lt' (lt_of_le_of_lt hle hsmall)
  have hcount : p.getStats.nativeSampledEntryCount.toNat = p.nativeCount := by
    rw [p.getStats_nativeSampledEntryCount]
    exact UInt32.toNat_ofNat_of_lt' hsmall
  have hsum := congrArg UInt32.toNat h.getStats_add
  rw [UInt32.toNat_add, hkeys, hcount] at hsum
  have hdup := p.getStats.sampledDuplicateEntryCount.toNat_lt
  omega

/-!
## Duplicate resolution does not depend on the load order of files

The entry kept for a sampled key is the first least one of the key's entries under the
preference rank. Entries of equal rank come from one file, so any reordering that keeps
the order within each file keeps the entry of every key.
-/

def Provider.sampledEntry (p : Provider) (k : SampledLookupKey) : Option Entry :=
  (p.sampledIndex.lookup k).map p.entryAt

theorem Provider.Indexed.sampledEntry_eq {p : Provider} (h : p.Indexed) (k : SampledLookupKey) :
    p.sampledEntry k = (p.entries.filter fun e => e.sampledKey = some k).argmin Entry.rank := by
  rw [Provider.sampledEntry, h.sampled.lookup, ← leastOccurrence_map_fst, Option.map_map]
  cases hl : leastOccurrence Entry.rank Entry.sampledKey p.entries k with
  | none => rfl
  | some b =>
    have hb : p.entries[b.2]? = some b.1 := (mem_occurrences.mp (List.argmin_mem hl)).1
    exact congrArg some (Provider.entryAt_of_getElem? hb)

theorem Provider.Indexed.sampledEntry_eq_of_filter_eq {p q : Provider} (hp : p.Indexed)
    (hq : q.Indexed) (h : ∀ path, (p.entries.filter fun e => e.sourcePath = path) =
      q.entries.filter fun e => e.sourcePath = path) (k : SampledLookupKey) :
    p.sampledEntry k = q.sampledEntry k := by
  rw [hp.sampledEntry_eq, hq.sampledEntry_eq]
  refine argmin_eq_of_filter_eq (fun _ _ => Entry.sourcePath_eq_of_rank_eq) fun path => ?_
  rw [List.filter_comm, h, List.filter_comm]

/-- Adding native entries in an order that differs only between files leaves the sampled
table pointing at equal entries. -/
theorem Provider.sampledEntry_addEntries_perm (ops : List Op) (l : List Entry)
    (σ : Equiv.Perm (Fin l.length))
    (h : ∀ i j, i < j → (l.get (σ i)).sourcePath = (l.get (σ j)).sourcePath → σ i < σ j)
    (k : SampledLookupKey) :
    ((Provider.run ops).addEntries (List.ofFn fun i => l.get (σ i))).sampledEntry k =
      ((Provider.run ops).addEntries l).sampledEntry k := by
  have hindexed := Provider.run_indexed ops
  refine (hindexed.addEntries _).sampledEntry_eq_of_filter_eq (hindexed.addEntries l)
    (fun path => ?_) k
  rw [Provider.addEntries_entries, Provider.addEntries_entries, List.filter_append,
    List.filter_append, filter_ofFn_perm Entry.sourcePath l σ h]

/-- Two files that offer one key, loaded in either order. -/
theorem Provider.sampledEntry_addEntries_swap :
    let a : Entry := { sourcePath := [97], width := 2, hasNativeSampledIdentity := true }
    let b : Entry := { sourcePath := [98], width := 1, hasNativeSampledIdentity := true }
    (Provider.addEntries {} [b, a]).sampledEntry {} =
      (Provider.addEntries {} [a, b]).sampledEntry {} :=
  Provider.sampledEntry_addEntries_perm []
    [{ sourcePath := [97], width := 2, hasNativeSampledIdentity := true },
      { sourcePath := [98], width := 1, hasNativeSampledIdentity := true }]
    (Equiv.swap 0 1) (by decide) {}

end ParallelN64.Replacement
