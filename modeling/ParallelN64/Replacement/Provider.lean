import ParallelN64.Core.Index
import ParallelN64.Replacement.Entry

/-!
# The replacement provider and its eight containers

Adding an entry appends it to the entry list and updates the seven index tables
by hand. Every table is shown to be the index of the entry list under the partial
key it is meant for, in every state reached from the empty provider.
-/

namespace ParallelN64.Replacement

open ParallelN64.Core

/-- The provider state: the loaded entries and the tables that index them. -/
structure Provider where
  enabled : Bool := false
  cacheDir : Bytes := []
  entries : List Entry := []
  nativeChecksumIndex : Table UInt64 (List Nat) := ∅
  compatChecksumIndex : Table UInt64 (List Nat) := ∅
  compatChecksumLow32Index : Table UInt32 (List Nat) := ∅
  sampledIndex : Table SampledLookupKey Nat := ∅
  sampledDuplicateIndex : Table SampledLookupKey UInt32 := ∅
  sampledFamilyIndex : Table SampledFamilyLookupKey (List Nat) := ∅
  orderedSurfaceSelectors : Table UInt64 (List UInt64) := ∅
  memoryBudgetBytes : Nat := 0

/-- Index a native entry under its full key, resolving a duplicate by preference,
and under its family. -/
def Provider.indexSampled (p : Provider) (index : Nat) (stored : Entry) : Provider :=
  let sampledKey := stored.makeSampledLookupKey
  let p := match p.sampledIndex.lookup sampledKey with
    | some active =>
      let duplicates := p.sampledDuplicateIndex.tick 1 (· + 1) sampledKey
      if p.entries[active]?.any (preferSampledDuplicateCandidate · stored) then
        { p with sampledDuplicateIndex := duplicates,
                 sampledIndex := p.sampledIndex.insert sampledKey index }
      else { p with sampledDuplicateIndex := duplicates }
    | none => { p with sampledIndex := p.sampledIndex.insert sampledKey index }
  { p with sampledFamilyIndex :=
      p.sampledFamilyIndex.push stored.makeSampledFamilyLookupKey index }

/-- Record the selector of an ordered-surface entry under its folded key. -/
def Provider.indexOrderedSurface (p : Provider) (stored : Entry) : Provider :=
  let orderedKey := composeOrderedSurfaceIndexKey stored.checksum64 stored.formatsize
  let selectors := appendUniqueOrderedSurfaceSelector
    ((p.orderedSurfaceSelectors.lookup orderedKey).getD []) stored.selectorChecksum64
  { p with orderedSurfaceSelectors := p.orderedSurfaceSelectors.insert orderedKey selectors }

/-- Append an entry and update every table. -/
def Provider.addEntry (p : Provider) (entry : Entry) : Provider :=
  let index := p.entries.length
  let p := { p with entries := p.entries ++ [entry] }
  let p := if entry.hasNativeSampledIdentity then
      { p with nativeChecksumIndex := p.nativeChecksumIndex.push entry.checksum64 index }
    else { p with compatChecksumIndex := p.compatChecksumIndex.push entry.checksum64 index }
  let p := if !entry.hasNativeSampledIdentity then
      { p with compatChecksumLow32Index :=
          p.compatChecksumLow32Index.push entry.checksum64.toUInt32 index }
    else p
  let p := if entry.hasNativeSampledIdentity then p.indexSampled index entry else p
  if isOrderedSurfaceSelector entry.selectorChecksum64 then p.indexOrderedSurface entry else p

def Provider.clear (p : Provider) : Provider :=
  { enabled := p.enabled, memoryBudgetBytes := p.memoryBudgetBytes }

/-- The operations that change the entries of a provider. -/
inductive Op where
  | addEntry (entry : Entry)
  | clear
  deriving DecidableEq, Repr

def Op.apply (p : Provider) : Op → Provider
  | .addEntry entry => p.addEntry entry
  | .clear => p.clear

def Provider.run (ops : List Op) : Provider := ops.foldl Op.apply {}

def Provider.addEntries (p : Provider) (es : List Entry) : Provider := es.foldl Provider.addEntry p

def Entry.nativeChecksumKey (e : Entry) : Option UInt64 :=
  if e.hasNativeSampledIdentity then some e.checksum64 else none

def Entry.compatChecksumKey (e : Entry) : Option UInt64 :=
  if e.hasNativeSampledIdentity then none else some e.checksum64

def Entry.compatLow32Key (e : Entry) : Option UInt32 :=
  if e.hasNativeSampledIdentity then none else some e.checksum64.toUInt32

def Entry.sampledKey (e : Entry) : Option SampledLookupKey :=
  if e.hasNativeSampledIdentity then some e.makeSampledLookupKey else none

def Entry.sampledFamilyKey (e : Entry) : Option SampledFamilyLookupKey :=
  if e.hasNativeSampledIdentity then some e.makeSampledFamilyLookupKey else none

def Entry.orderedSurfaceKey (e : Entry) : Option UInt64 :=
  if isOrderedSurfaceSelector e.selectorChecksum64 then
    some (composeOrderedSurfaceIndexKey e.checksum64 e.formatsize)
  else none

/-- Every table is exactly the index of the entry list it is meant to be. -/
structure Provider.Indexed (p : Provider) : Prop where
  /-- Native entries by checksum. -/
  native : GroupIndex p.nativeChecksumIndex Entry.nativeChecksumKey p.entries
  /-- Compat entries by checksum. -/
  compat : GroupIndex p.compatChecksumIndex Entry.compatChecksumKey p.entries
  /-- Compat entries by the low half of their checksum. -/
  low32 : GroupIndex p.compatChecksumLow32Index Entry.compatLow32Key p.entries
  /-- The preferred native entry of each sampled key. -/
  sampled : LeastIndex p.sampledIndex Entry.rank Entry.sampledKey p.entries
  /-- The number of later native entries of each repeated sampled key. -/
  duplicate : RepeatIndex p.sampledDuplicateIndex 1 (· + 1) Entry.sampledKey p.entries
  /-- Native entries by sampled family. -/
  family : GroupIndex p.sampledFamilyIndex Entry.sampledFamilyKey p.entries
  /-- Ordered-surface selectors by folded key. -/
  ordered : SetIndex p.orderedSurfaceSelectors Entry.orderedSurfaceKey
    Entry.selectorChecksum64 p.entries

theorem Provider.indexed_empty (enabled : Bool) (budget : Nat) :
    Provider.Indexed { enabled := enabled, memoryBudgetBytes := budget } where
  native := GroupIndex.empty _
  compat := GroupIndex.empty _
  low32 := GroupIndex.empty _
  sampled := LeastIndex.empty _ _
  duplicate := RepeatIndex.empty _ _ _
  family := GroupIndex.empty _
  ordered := SetIndex.empty _ _

section AddEntry

variable (p : Provider) (i : Nat) (e : Entry)

theorem Provider.indexSampled_cases :
    (p.sampledIndex.lookup e.makeSampledLookupKey = none ∧
      p.indexSampled i e = { p with
        sampledIndex := p.sampledIndex.insert e.makeSampledLookupKey i,
        sampledFamilyIndex := p.sampledFamilyIndex.push e.makeSampledFamilyLookupKey i }) ∨
    (∃ active, p.sampledIndex.lookup e.makeSampledLookupKey = some active ∧
      p.entries[active]?.any (preferSampledDuplicateCandidate · e) = true ∧
      p.indexSampled i e = { p with
        sampledIndex := p.sampledIndex.insert e.makeSampledLookupKey i,
        sampledDuplicateIndex := p.sampledDuplicateIndex.tick 1 (· + 1) e.makeSampledLookupKey,
        sampledFamilyIndex := p.sampledFamilyIndex.push e.makeSampledFamilyLookupKey i }) ∨
    (∃ active, p.sampledIndex.lookup e.makeSampledLookupKey = some active ∧
      p.entries[active]?.any (preferSampledDuplicateCandidate · e) = false ∧
      p.indexSampled i e = { p with
        sampledDuplicateIndex := p.sampledDuplicateIndex.tick 1 (· + 1) e.makeSampledLookupKey,
        sampledFamilyIndex := p.sampledFamilyIndex.push e.makeSampledFamilyLookupKey i }) := by
  unfold Provider.indexSampled
  cases hk : p.sampledIndex.lookup e.makeSampledLookupKey with
  | none => exact Or.inl ⟨rfl, by simp only [hk]⟩
  | some active =>
    cases ha : p.entries[active]?.any (preferSampledDuplicateCandidate · e) with
    | true =>
      exact Or.inr (Or.inl ⟨active, rfl, ha, by simp only [hk, ha, if_true]⟩)
    | false =>
      exact Or.inr (Or.inr ⟨active, rfl, ha, by simp [hk, ha]⟩)

/-- The ordered-surface table after an entry has been added. -/
def Provider.orderedSurfaceSelectorsAfter : Table UInt64 (List UInt64) :=
  if isOrderedSurfaceSelector e.selectorChecksum64 then
    (p.indexOrderedSurface e).orderedSurfaceSelectors
  else p.orderedSurfaceSelectors

theorem Provider.addEntry_native (h : e.hasNativeSampledIdentity = true) :
    p.addEntry e =
      { Provider.indexSampled { p with
          entries := p.entries ++ [e]
          nativeChecksumIndex := p.nativeChecksumIndex.push e.checksum64 p.entries.length }
          p.entries.length e with
        orderedSurfaceSelectors := p.orderedSurfaceSelectorsAfter e } := by
  obtain ⟨_, hr⟩ | ⟨_, _, _, hr⟩ | ⟨_, _, _, hr⟩ := Provider.indexSampled_cases { p with
      entries := p.entries ++ [e]
      nativeChecksumIndex := p.nativeChecksumIndex.push e.checksum64 p.entries.length }
      p.entries.length e <;>
  · unfold Provider.addEntry Provider.orderedSurfaceSelectorsAfter
    by_cases ho : isOrderedSurfaceSelector e.selectorChecksum64 = true <;>
      simp [h, hr, ho, Provider.indexOrderedSurface]

theorem Provider.addEntry_compat (h : e.hasNativeSampledIdentity = false) :
    p.addEntry e = { p with
      entries := p.entries ++ [e]
      compatChecksumIndex := p.compatChecksumIndex.push e.checksum64 p.entries.length
      compatChecksumLow32Index :=
        p.compatChecksumLow32Index.push e.checksum64.toUInt32 p.entries.length
      orderedSurfaceSelectors := p.orderedSurfaceSelectorsAfter e } := by
  unfold Provider.addEntry Provider.orderedSurfaceSelectorsAfter
  by_cases ho : isOrderedSurfaceSelector e.selectorChecksum64 = true <;>
    simp [h, ho, Provider.indexOrderedSurface]

@[simp] theorem Provider.addEntry_entries : (p.addEntry e).entries = p.entries ++ [e] := by
  cases he : e.hasNativeSampledIdentity with
  | false => rw [p.addEntry_compat e he]
  | true =>
    rw [p.addEntry_native e he]
    obtain ⟨_, hr⟩ | ⟨_, _, _, hr⟩ | ⟨_, _, _, hr⟩ := Provider.indexSampled_cases { p with
        entries := p.entries ++ [e]
        nativeChecksumIndex := p.nativeChecksumIndex.push e.checksum64 p.entries.length }
        p.entries.length e <;> rw [hr]

end AddEntry

theorem Provider.Indexed.ordered_append {p : Provider} (h : p.Indexed) (e : Entry) :
    SetIndex (p.orderedSurfaceSelectorsAfter e) Entry.orderedSurfaceKey Entry.selectorChecksum64
      (p.entries ++ [e]) := by
  unfold Provider.orderedSurfaceSelectorsAfter
  split
  next ho =>
    have hk : e.orderedSurfaceKey =
        some (composeOrderedSurfaceIndexKey e.checksum64 e.formatsize) := if_pos ho
    exact h.ordered.insert hk (pairwise_appendUniqueOrderedSurfaceSelector _ (h.ordered.sorted _))
      fun _ => mem_appendUniqueOrderedSurfaceSelector
  next ho =>
    have hk : e.orderedSurfaceKey = none := if_neg ho
    exact h.ordered.skip hk

theorem Provider.Indexed.addEntry_compat {p : Provider} (h : p.Indexed) {e : Entry}
    (he : e.hasNativeSampledIdentity = false) : (p.addEntry e).Indexed := by
  have hc : e.compatChecksumKey = some e.checksum64 := by simp [Entry.compatChecksumKey, he]
  have hl : e.compatLow32Key = some e.checksum64.toUInt32 := by simp [Entry.compatLow32Key, he]
  have hn : e.nativeChecksumKey = none := by simp [Entry.nativeChecksumKey, he]
  have hs : e.sampledKey = none := by simp [Entry.sampledKey, he]
  have hf : e.sampledFamilyKey = none := by simp [Entry.sampledFamilyKey, he]
  rw [p.addEntry_compat e he]
  exact {
    native := h.native.skip hn
    compat := h.compat.push hc
    low32 := h.low32.push hl
    sampled := h.sampled.skip hs
    duplicate := h.duplicate.skip hs
    family := h.family.skip hf
    ordered := h.ordered_append e }

theorem Provider.Indexed.addEntry_native {p : Provider} (h : p.Indexed) {e : Entry}
    (he : e.hasNativeSampledIdentity = true) : (p.addEntry e).Indexed := by
  have hc : e.compatChecksumKey = none := by simp [Entry.compatChecksumKey, he]
  have hl : e.compatLow32Key = none := by simp [Entry.compatLow32Key, he]
  have hn : e.nativeChecksumKey = some e.checksum64 := by simp [Entry.nativeChecksumKey, he]
  have hs : e.sampledKey = some e.makeSampledLookupKey := by simp [Entry.sampledKey, he]
  have hf : e.sampledFamilyKey = some e.makeSampledFamilyLookupKey := by
    simp [Entry.sampledFamilyKey, he]
  rw [p.addEntry_native e he]
  obtain ⟨hk, hr⟩ | ⟨active, hk, ha, hr⟩ | ⟨active, hk, ha, hr⟩ :=
    Provider.indexSampled_cases { p with
      entries := p.entries ++ [e]
      nativeChecksumIndex := p.nativeChecksumIndex.push e.checksum64 p.entries.length }
      p.entries.length e
  · have hnil : occurrences Entry.sampledKey p.entries e.makeSampledLookupKey = [] := by
      have hnone := hk
      rwa [h.sampled.lookup, Option.map_eq_none_iff, leastOccurrence,
        List.argmin_eq_none] at hnone
    rw [hr]
    exact {
      native := h.native.push hn
      compat := h.compat.skip hc
      low32 := h.low32.skip hl
      sampled := h.sampled.insert_new hs hk
      duplicate := h.duplicate.first_seen hs hnil
      family := h.family.push hf
      ordered := h.ordered_append e }
  all_goals
    obtain ⟨y, hy, hyi, _⟩ := h.sampled.of_lookup hk
    have hsome : occurrences Entry.sampledKey p.entries e.makeSampledLookupKey ≠ [] :=
      List.ne_nil_of_mem (List.argmin_mem hy)
    have hlt : active < p.entries.length := (List.getElem?_eq_some_iff.mp hyi).1
    rw [List.getElem?_append_left hlt, hyi] at ha
    rw [hr]
  · exact {
      native := h.native.push hn
      compat := h.compat.skip hc
      low32 := h.low32.skip hl
      sampled := h.sampled.insert_less hs hk hyi ((preferSampledDuplicateCandidate_iff y e).mp ha)
      duplicate := h.duplicate.seen_again hs hsome
      family := h.family.push hf
      ordered := h.ordered_append e }
  · exact {
      native := h.native.push hn
      compat := h.compat.skip hc
      low32 := h.low32.skip hl
      sampled := h.sampled.keep hs hk hyi fun hlt' =>
        Bool.false_ne_true (ha.symm.trans ((preferSampledDuplicateCandidate_iff y e).mpr hlt'))
      duplicate := h.duplicate.seen_again hs hsome
      family := h.family.push hf
      ordered := h.ordered_append e }

theorem Provider.Indexed.apply {p : Provider} (h : p.Indexed) (op : Op) : (op.apply p).Indexed := by
  cases op with
  | addEntry e =>
    cases he : e.hasNativeSampledIdentity with
    | true => exact h.addEntry_native he
    | false => exact h.addEntry_compat he
  | clear => exact Provider.indexed_empty _ _

theorem Provider.run_indexed (ops : List Op) : (Provider.run ops).Indexed := by
  unfold Provider.run
  induction ops using List.reverseRecOn with
  | nil => exact Provider.indexed_empty _ _
  | append_singleton ops op ih =>
    rw [List.foldl_append]
    exact ih.apply op

section AddEntries

variable (p : Provider)

@[simp] theorem Provider.addEntries_nil : p.addEntries [] = p := rfl

@[simp] theorem Provider.addEntries_cons (e : Entry) (es : List Entry) :
    p.addEntries (e :: es) = (p.addEntry e).addEntries es := rfl

theorem Provider.addEntries_append (es fs : List Entry) :
    p.addEntries (es ++ fs) = (p.addEntries es).addEntries fs :=
  List.foldl_append

@[simp] theorem Provider.addEntries_entries (es : List Entry) :
    (p.addEntries es).entries = p.entries ++ es := by
  induction es generalizing p with
  | nil => simp
  | cons e es ih => rw [Provider.addEntries_cons, ih, Provider.addEntry_entries]; simp

theorem Provider.Indexed.addEntries {p : Provider} (h : p.Indexed) (es : List Entry) :
    (p.addEntries es).Indexed := by
  induction es generalizing p with
  | nil => exact h
  | cons e es ih => exact ih (h.apply (.addEntry e))

end AddEntries

end ParallelN64.Replacement
