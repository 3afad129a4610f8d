import ParallelN64.Replacement.Lookup

/-!
# The representation invariant of the provider

In every state reached by adding entries and clearing, the tables hold positions of
the right entries only, each entry exactly where its class belongs, and the duplicate
counters count modulo their width. The family lookup never meets a missing sampled
entry.
-/

namespace ParallelN64.Replacement

open ParallelN64.Core

def Provider.nativeKeyCount (p : Provider) (k : SampledLookupKey) : Nat :=
  p.entries.countP fun e => e.hasNativeSampledIdentity && decide (e.makeSampledLookupKey = k)

/-- How the tables of a provider represent its entries. -/
structure Provider.Represented (p : Provider) : Prop where
  /-- Positions in the native checksum table are in range. -/
  native_lt : ∀ k is, p.nativeChecksumIndex.lookup k = some is → ∀ i ∈ is, i < p.entries.length
  /-- Positions in the compat checksum table are in range. -/
  compat_lt : ∀ k is, p.compatChecksumIndex.lookup k = some is → ∀ i ∈ is, i < p.entries.length
  /-- Positions in the compat low-half table are in range. -/
  low32_lt : ∀ k is, p.compatChecksumLow32Index.lookup k = some is →
    ∀ i ∈ is, i < p.entries.length
  /-- Positions in the sampled family table are in range. -/
  family_lt : ∀ k is, p.sampledFamilyIndex.lookup k = some is → ∀ i ∈ is, i < p.entries.length
  /-- Positions in the sampled table are in range. -/
  sampled_lt : ∀ k i, p.sampledIndex.lookup k = some i → i < p.entries.length
  /-- A native entry is listed once under its checksum and once under its family, under no
  other key, and in no compat table. -/
  native_once : ∀ i e, p.entries[i]? = some e → e.hasNativeSampledIdentity = true →
    (∀ k, ((p.nativeChecksumIndex.lookup k).getD []).count i =
      if k = e.checksum64 then 1 else 0) ∧
    (∀ k, ((p.sampledFamilyIndex.lookup k).getD []).count i =
      if k = e.makeSampledFamilyLookupKey then 1 else 0) ∧
    (∀ k, i ∉ (p.compatChecksumIndex.lookup k).getD []) ∧
    (∀ k, i ∉ (p.compatChecksumLow32Index.lookup k).getD [])
  /-- A compat entry is listed once under its checksum and once under the low half of it,
  under no other key, and in no native table. -/
  compat_once : ∀ i e, p.entries[i]? = some e → e.hasNativeSampledIdentity = false →
    (∀ k, ((p.compatChecksumIndex.lookup k).getD []).count i =
      if k = e.checksum64 then 1 else 0) ∧
    (∀ k, ((p.compatChecksumLow32Index.lookup k).getD []).count i =
      if k = e.checksum64.toUInt32 then 1 else 0) ∧
    (∀ k, i ∉ (p.nativeChecksumIndex.lookup k).getD []) ∧
    (∀ k, i ∉ (p.sampledFamilyIndex.lookup k).getD []) ∧
    (∀ k, p.sampledIndex.lookup k ≠ some i)
  /-- The sampled table has exactly the keys of native entries. -/
  sampled_mem : ∀ k, k ∈ p.sampledIndex ↔
    ∃ e ∈ p.entries, e.hasNativeSampledIdentity = true ∧ e.makeSampledLookupKey = k
  /-- The sampled table maps a key to a native entry with that key. -/
  sampled_key : ∀ k i, p.sampledIndex.lookup k = some i →
    ∃ e, p.entries[i]? = some e ∧ e.hasNativeSampledIdentity = true ∧ e.makeSampledLookupKey = k
  /-- A key with `n ≥ 2` native entries counts `n - 1` modulo the counter's width, and any
  other key has no counter. -/
  duplicate : ∀ k, (p.sampledDuplicateIndex.lookup k).map UInt32.toNat =
    if 2 ≤ p.nativeKeyCount k then some ((p.nativeKeyCount k - 1) % 2 ^ 32) else none

theorem Entry.sampledKey_eq_some {e : Entry} {k : SampledLookupKey} :
    e.sampledKey = some k ↔ e.hasNativeSampledIdentity = true ∧ e.makeSampledLookupKey = k := by
  unfold Entry.sampledKey
  by_cases h : e.hasNativeSampledIdentity = true <;> simp [h]

theorem Provider.length_occurrences_sampledKey (p : Provider) (k : SampledLookupKey) :
    (occurrences Entry.sampledKey p.entries k).length = p.nativeKeyCount k := by
  rw [length_occurrences, ← List.countP_eq_length_filter, Provider.nativeKeyCount]
  refine List.countP_congr fun e _ => ?_
  simp [Entry.sampledKey_eq_some]

theorem iterate_add_one (n : Nat) : (fun v : UInt32 => v + 1)^[n] 1 = UInt32.ofNat (n + 1) := by
  induction n with
  | zero => rfl
  | succ n ih => rw [Function.iterate_succ_apply', ih, UInt32.ofNat_add (n + 1) 1]; rfl

theorem Provider.Indexed.duplicate_toNat {p : Provider} (h : p.Indexed) (k : SampledLookupKey) :
    (p.sampledDuplicateIndex.lookup k).map UInt32.toNat =
      if 2 ≤ p.nativeKeyCount k then some ((p.nativeKeyCount k - 1) % 2 ^ 32) else none := by
  rw [h.duplicate.lookup, p.length_occurrences_sampledKey]
  by_cases hn : 2 ≤ p.nativeKeyCount k
  · rw [if_pos hn, if_pos hn, iterate_add_one, Option.map_some, UInt32.toNat_ofNat',
      show p.nativeKeyCount k - 2 + 1 = p.nativeKeyCount k - 1 by omega]
  · rw [if_neg hn, if_neg hn, Option.map_none]

theorem Provider.Indexed.represented {p : Provider} (h : p.Indexed) : p.Represented where
  native_lt _ _ hk _ hi := lt_length_of_mem_positions (h.native.of_lookup hk ▸ hi)
  compat_lt _ _ hk _ hi := lt_length_of_mem_positions (h.compat.of_lookup hk ▸ hi)
  low32_lt _ _ hk _ hi := lt_length_of_mem_positions (h.low32.of_lookup hk ▸ hi)
  family_lt _ _ hk _ hi := lt_length_of_mem_positions (h.family.of_lookup hk ▸ hi)
  sampled_lt k i hk := by
    obtain ⟨e, _, he, _⟩ := h.sampled.of_lookup hk
    exact (List.getElem?_eq_some_iff.mp he).1
  native_once i e he hn := by
    refine ⟨fun k => ?_, fun k => ?_, fun k hi => ?_, fun k hi => ?_⟩
    · rw [h.native.getD, count_positions _ _ k he]
      simp [Entry.nativeChecksumKey, hn, eq_comm]
    · rw [h.family.getD, count_positions _ _ k he]
      simp [Entry.sampledFamilyKey, hn, eq_comm]
    · rw [h.compat.getD, mem_positions, he] at hi
      simp [Entry.compatChecksumKey, hn] at hi
    · rw [h.low32.getD, mem_positions, he] at hi
      simp [Entry.compatLow32Key, hn] at hi
  compat_once i e he hn := by
    refine ⟨fun k => ?_, fun k => ?_, fun k hi => ?_, fun k hi => ?_, fun k hk => ?_⟩
    · rw [h.compat.getD, count_positions _ _ k he]
      simp [Entry.compatChecksumKey, hn, eq_comm]
    · rw [h.low32.getD, count_positions _ _ k he]
      simp [Entry.compatLow32Key, hn, eq_comm]
    · rw [h.native.getD, mem_positions, he] at hi
      simp [Entry.nativeChecksumKey, hn] at hi
    · rw [h.family.getD, mem_positions, he] at hi
      simp [Entry.sampledFamilyKey, hn] at hi
    · obtain ⟨e', _, he', hs⟩ := h.sampled.of_lookup hk
      obtain rfl : e = e' := Option.some.inj (he.symm.trans he')
      simp [Entry.sampledKey_eq_some, hn] at hs
  sampled_mem k := by simp only [h.sampled.mem_iff, Entry.sampledKey_eq_some]
  sampled_key k i hk := by
    obtain ⟨e, _, he, hs⟩ := h.sampled.of_lookup hk
    exact ⟨e, he, Entry.sampledKey_eq_some.mp hs⟩
  duplicate := h.duplicate_toNat

/-- Every reachable provider is represented by its tables, its counts balance, and once the
family lookup has settled on a selector it finds an entry for it. -/
theorem Provider.run_represented (ops : List Op) :
    (Provider.run ops).Represented ∧
    (Provider.run ops).getStats.sampledIndexCount +
        (Provider.run ops).getStats.sampledDuplicateEntryCount =
      (Provider.run ops).getStats.nativeSampledEntryCount ∧
    ((Provider.run ops).nativeCount < 2 ^ 32 →
      (Provider.run ops).getStats.sampledIndexCount.toNat +
          (Provider.run ops).getStats.sampledDuplicateEntryCount.toNat =
        (Provider.run ops).getStats.nativeSampledEntryCount.toNat) ∧
    ∀ query allow selected ordered,
      (Provider.run ops).singletonSampledFamilySelector query allow = some (selected, ordered) →
        ∃ entry, (Provider.run ops).findSampledEntry query selected = some entry ∧
          (Provider.run ops).findSingletonSampledFamilyEntry query allow =
            some (entry, selected, ordered) := by
  have hindexed := Provider.run_indexed ops
  have hbalanced := Provider.run_balanced ops
  refine ⟨hindexed.represented, hbalanced.getStats_add, hbalanced.getStats_add_toNat, ?_⟩
  intro query allow selected ordered hs
  obtain ⟨entry, he⟩ := Option.isSome_iff_exists.mp
    (Provider.findSampledEntry_isSome (hindexed.findMatching_of_singleton hs))
  refine ⟨entry, he, ?_⟩
  rw [Provider.findSingletonSampledFamilyEntry, hs]
  simp only [he]

theorem Provider.run_replicate_entries (n : Nat) (e : Entry) :
    (Provider.run (List.replicate n (.addEntry e))).entries = List.replicate n e := by
  induction n with
  | zero => rfl
  | succ n ih =>
    rw [List.replicate_succ', Provider.run, List.foldl_append, List.replicate_succ', ← ih]
    exact Provider.addEntry_entries _ _

theorem Provider.run_replicate_nativeKeyCount (n : Nat) {e : Entry}
    (he : e.hasNativeSampledIdentity = true) :
    (Provider.run (List.replicate n (.addEntry e))).nativeKeyCount e.makeSampledLookupKey = n := by
  rw [Provider.nativeKeyCount, Provider.run_replicate_entries, List.countP_replicate]
  simp [he]

/-- After `2 ^ 32 + 1` native entries under one key its counter reads zero. -/
theorem Provider.duplicate_counter_wraps :
    ¬ ∀ (ops : List Op) (k : SampledLookupKey), 2 ≤ (Provider.run ops).nativeKeyCount k →
      ((Provider.run ops).sampledDuplicateIndex.lookup k).map UInt32.toNat =
        some ((Provider.run ops).nativeKeyCount k - 1) := by
  intro h
  let e : Entry := { hasNativeSampledIdentity := true }
  have he : e.hasNativeSampledIdentity = true := rfl
  have hcount := Provider.run_replicate_nativeKeyCount (2 ^ 32 + 1) he
  have hclaim := h (List.replicate (2 ^ 32 + 1) (.addEntry e)) e.makeSampledLookupKey
  rw [(Provider.run_indexed _).duplicate_toNat, hcount] at hclaim
  have hwrong := hclaim (by omega)
  simp at hwrong

end ParallelN64.Replacement
