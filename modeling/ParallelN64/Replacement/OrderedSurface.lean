import Mathlib.Data.Finset.Card
import Mathlib.Data.Finset.Dedup
import Mathlib.Data.List.GetD
import ParallelN64.Replacement.Provider

/-!
# Ordered-surface selectors of a texture

The selector table is keyed by the checksum with the format size folded into its top
bits, so textures of different format sizes can share one list. The list of a key is
the increasing list of all selectors folded onto it, and a query reads exactly the
selectors of its own texture when no other texture has added to the list.
-/

namespace ParallelN64.Replacement

open ParallelN64.Core

section Queries

variable (p : Provider) (textureCrc paletteCrc : UInt32) (formatsize : UInt16)

def Provider.orderedSurfaceSelectorCount : UInt32 :=
  let checksum64 := composeHiresChecksum64 textureCrc paletteCrc
  match p.orderedSurfaceSelectors.lookup (composeOrderedSurfaceIndexKey checksum64 formatsize) with
  | none => 0
  | some selectors => UInt32.ofNat selectors.length

/-- The selector at an index, or zero past the end. -/
def Provider.orderedSurfaceSelectorChecksum64 (selectorIndex : UInt32) : UInt64 :=
  let checksum64 := composeHiresChecksum64 textureCrc paletteCrc
  match p.orderedSurfaceSelectors.lookup (composeOrderedSurfaceIndexKey checksum64 formatsize) with
  | none => 0
  | some selectors => selectors.getD selectorIndex.toNat 0

def Provider.orderedSurfaceList : List UInt64 :=
  (p.orderedSurfaceSelectors.lookup (composeOrderedSurfaceIndexKey
    (composeHiresChecksum64 textureCrc paletteCrc) formatsize)).getD []

theorem Provider.orderedSurfaceSelectorCount_eq :
    p.orderedSurfaceSelectorCount textureCrc paletteCrc formatsize =
      UInt32.ofNat (p.orderedSurfaceList textureCrc paletteCrc formatsize).length := by
  unfold Provider.orderedSurfaceSelectorCount Provider.orderedSurfaceList
  dsimp only
  split
  next h => rw [h]; rfl
  next selectors h => rw [h]; rfl

theorem Provider.orderedSurfaceSelectorChecksum64_eq (selectorIndex : UInt32) :
    p.orderedSurfaceSelectorChecksum64 textureCrc paletteCrc formatsize selectorIndex =
      (p.orderedSurfaceList textureCrc paletteCrc formatsize).getD selectorIndex.toNat 0 := by
  unfold Provider.orderedSurfaceSelectorChecksum64 Provider.orderedSurfaceList
  dsimp only
  split
  next h => rw [h]; rfl
  next selectors h => rw [h]; rfl

/-- The count and the indexed reads of a query enumerate a set of selectors. -/
structure Provider.EnumeratesOrderedSurfaces (s : Finset UInt64) : Prop where
  count : (p.orderedSurfaceSelectorCount textureCrc paletteCrc formatsize).toNat = s.card
  increasing : ∀ i j, i < j →
    j < p.orderedSurfaceSelectorCount textureCrc paletteCrc formatsize →
    p.orderedSurfaceSelectorChecksum64 textureCrc paletteCrc formatsize i <
      p.orderedSurfaceSelectorChecksum64 textureCrc paletteCrc formatsize j
  mem_iff : ∀ v, v ∈ s ↔ ∃ i, i < p.orderedSurfaceSelectorCount textureCrc paletteCrc formatsize ∧
    p.orderedSurfaceSelectorChecksum64 textureCrc paletteCrc formatsize i = v

end Queries

section Selectors

variable (es : List Entry) (textureCrc paletteCrc : UInt32) (formatsize : UInt16)

/-- The ordered-surface selectors of the entries with the query's checksum and format size. -/
def exactOrderedSurfaceSelectors : Finset UInt64 :=
  ((es.filter fun e => isOrderedSurfaceSelector e.selectorChecksum64 &&
    decide (e.checksum64 = composeHiresChecksum64 textureCrc paletteCrc) &&
    decide (e.formatsize = formatsize)).map Entry.selectorChecksum64).toFinset

/-- The ordered-surface selectors of all entries folded onto the query's table key. -/
def foldedOrderedSurfaceSelectors : Finset UInt64 :=
  ((es.filter fun e => isOrderedSurfaceSelector e.selectorChecksum64 &&
    decide (composeOrderedSurfaceIndexKey e.checksum64 e.formatsize =
      composeOrderedSurfaceIndexKey (composeHiresChecksum64 textureCrc paletteCrc)
        formatsize)).map Entry.selectorChecksum64).toFinset

end Selectors

theorem orderedSurfaceSelectorMask_testBit :
    ∀ i : Fin 64, orderedSurfaceSelectorMask.toNat.testBit i = decide (32 ≤ i.val) := by
  decide

theorem eq_of_isOrderedSurfaceSelector {a b : UInt64} (ha : isOrderedSurfaceSelector a = true)
    (hb : isOrderedSurfaceSelector b = true) (h : a.toUInt32 = b.toUInt32) : a = b := by
  have hmask : a &&& orderedSurfaceSelectorMask = b &&& orderedSurfaceSelectorMask :=
    (beq_iff_eq.mp ha).trans (beq_iff_eq.mp hb).symm
  have hlow : a.toNat % 2 ^ 32 = b.toNat % 2 ^ 32 := by simpa using congrArg UInt32.toNat h
  have hhigh := congrArg UInt64.toNat hmask
  rw [UInt64.toNat_and, UInt64.toNat_and] at hhigh
  refine UInt64.toNat_inj.mp (Nat.eq_of_testBit_eq fun i => ?_)
  by_cases hi : i < 32
  · have hbit := congrArg (Nat.testBit · i) hlow
    simpa only [Nat.testBit_mod_two_pow, hi, decide_true, Bool.true_and] using hbit
  · by_cases hi64 : i < 64
    · have hbit := congrArg (Nat.testBit · i) hhigh
      have hm := orderedSurfaceSelectorMask_testBit ⟨i, hi64⟩
      simp only [Nat.testBit_and] at hbit
      rw [hm] at hbit
      simpa [Nat.le_of_not_lt hi] using hbit
    · have hge : 2 ^ 64 ≤ 2 ^ i := Nat.pow_le_pow_right (by decide) (Nat.le_of_not_lt hi64)
      rw [Nat.testBit_lt_two_pow (lt_of_lt_of_le a.toNat_lt hge),
        Nat.testBit_lt_two_pow (lt_of_lt_of_le b.toNat_lt hge)]

theorem length_le_of_isOrderedSurfaceSelector {l : List UInt64} (hn : l.Nodup)
    (ho : ∀ s ∈ l, isOrderedSurfaceSelector s = true) : l.length ≤ 2 ^ 32 := by
  have hmap : (l.map fun s => s.toUInt32.toNat).Nodup :=
    hn.map_on fun a ha b hb hab =>
      eq_of_isOrderedSurfaceSelector (ho a ha) (ho b hb) (UInt32.toNat_inj.mp hab)
  have hsub : (l.map fun s => s.toUInt32.toNat) ⊆ List.range (2 ^ 32) := by
    intro n hm
    obtain ⟨s, _, rfl⟩ := List.mem_map.mp hm
    exact List.mem_range.mpr s.toUInt32.toNat_lt
  have hle := (hmap.subperm hsub).length_le
  rwa [List.length_map, List.length_range] at hle

section Reachable

variable (ops : List Op) (textureCrc paletteCrc : UInt32) (formatsize : UInt16)

theorem orderedSurfaceList_pairwise :
    ((Provider.run ops).orderedSurfaceList textureCrc paletteCrc formatsize).Pairwise (· < ·) :=
  (Provider.run_indexed ops).ordered.sorted _

theorem mem_orderedSurfaceList {v : UInt64} :
    v ∈ (Provider.run ops).orderedSurfaceList textureCrc paletteCrc formatsize ↔
      v ∈ foldedOrderedSurfaceSelectors (Provider.run ops).entries
        textureCrc paletteCrc formatsize := by
  rw [Provider.orderedSurfaceList, (Provider.run_indexed ops).ordered.mem_iff]
  simp only [foldedOrderedSurfaceSelectors, List.mem_toFinset, List.mem_map, List.mem_filter,
    Bool.and_eq_true, decide_eq_true_eq, Entry.orderedSurfaceKey]
  constructor
  · rintro ⟨e, he, hk, rfl⟩
    by_cases ho : isOrderedSurfaceSelector e.selectorChecksum64 = true
    · rw [if_pos ho, Option.some.injEq] at hk
      exact ⟨e, ⟨he, ho, hk⟩, rfl⟩
    · rw [if_neg ho] at hk
      cases hk
  · rintro ⟨e, ⟨he, ho, hk⟩, rfl⟩
    exact ⟨e, he, by rw [if_pos ho, hk], rfl⟩

theorem toFinset_orderedSurfaceList :
    ((Provider.run ops).orderedSurfaceList textureCrc paletteCrc formatsize).toFinset =
      foldedOrderedSurfaceSelectors (Provider.run ops).entries textureCrc paletteCrc formatsize := by
  ext v
  rw [List.mem_toFinset, mem_orderedSurfaceList]

theorem length_orderedSurfaceList :
    ((Provider.run ops).orderedSurfaceList textureCrc paletteCrc formatsize).length =
      (foldedOrderedSurfaceSelectors (Provider.run ops).entries
        textureCrc paletteCrc formatsize).card := by
  have hnodup : ((Provider.run ops).orderedSurfaceList textureCrc paletteCrc formatsize).Nodup :=
    (orderedSurfaceList_pairwise ops textureCrc paletteCrc formatsize).imp fun h => ne_of_lt h
  rw [← toFinset_orderedSurfaceList, List.toFinset_card_of_nodup hnodup]

theorem length_orderedSurfaceList_le :
    ((Provider.run ops).orderedSurfaceList textureCrc paletteCrc formatsize).length ≤ 2 ^ 32 := by
  refine length_le_of_isOrderedSurfaceSelector
    ((orderedSurfaceList_pairwise ops textureCrc paletteCrc formatsize).imp fun h => ne_of_lt h)
    fun s hs => ?_
  rw [mem_orderedSurfaceList] at hs
  simp only [foldedOrderedSurfaceSelectors, List.mem_toFinset, List.mem_map, List.mem_filter,
    Bool.and_eq_true] at hs
  obtain ⟨e, ⟨_, ho, _⟩, rfl⟩ := hs
  exact ho

theorem orderedSurfaceSelectorCount_toNat :
    ((Provider.run ops).orderedSurfaceSelectorCount textureCrc paletteCrc formatsize).toNat =
      (foldedOrderedSurfaceSelectors (Provider.run ops).entries
        textureCrc paletteCrc formatsize).card % 2 ^ 32 := by
  rw [Provider.orderedSurfaceSelectorCount_eq, UInt32.toNat_ofNat', length_orderedSurfaceList]

theorem enumerates_foldedOrderedSurfaceSelectors
    (hsmall : (foldedOrderedSurfaceSelectors (Provider.run ops).entries
      textureCrc paletteCrc formatsize).card < 2 ^ 32) :
    (Provider.run ops).EnumeratesOrderedSurfaces textureCrc paletteCrc formatsize
      (foldedOrderedSurfaceSelectors (Provider.run ops).entries
        textureCrc paletteCrc formatsize) := by
  have hlen := length_orderedSurfaceList ops textureCrc paletteCrc formatsize
  have hcount := orderedSurfaceSelectorCount_toNat ops textureCrc paletteCrc formatsize
  rw [Nat.mod_eq_of_lt hsmall] at hcount
  have hsorted := orderedSurfaceList_pairwise ops textureCrc paletteCrc formatsize
  refine ⟨hcount, fun i j hij hj => ?_, fun v => ?_⟩
  · rw [UInt32.lt_iff_toNat_lt] at hij hj
    rw [Provider.orderedSurfaceSelectorChecksum64_eq, Provider.orderedSurfaceSelectorChecksum64_eq,
      List.getD_eq_getElem _ _ (by omega), List.getD_eq_getElem _ _ (by omega)]
    exact List.pairwise_iff_getElem.mp hsorted _ _ _ _ hij
  · rw [← mem_orderedSurfaceList, List.mem_iff_getElem]
    constructor
    · rintro ⟨n, hn, rfl⟩
      have hn32 : (UInt32.ofNat n).toNat = n := UInt32.toNat_ofNat_of_lt' (by
        show n < 2 ^ 32
        omega)
      refine ⟨UInt32.ofNat n, ?_, ?_⟩
      · rw [UInt32.lt_iff_toNat_lt, hn32]
        omega
      · rw [Provider.orderedSurfaceSelectorChecksum64_eq, hn32, List.getD_eq_getElem _ _ hn]
    · rintro ⟨i, hi, rfl⟩
      rw [UInt32.lt_iff_toNat_lt] at hi
      have hn : i.toNat <
          ((Provider.run ops).orderedSurfaceList textureCrc paletteCrc formatsize).length := by
        omega
      exact ⟨i.toNat, hn, by
        rw [Provider.orderedSurfaceSelectorChecksum64_eq, List.getD_eq_getElem _ _ hn]⟩

theorem Provider.EnumeratesOrderedSurfaces.unique {p : Provider} {s t : Finset UInt64}
    (hs : p.EnumeratesOrderedSurfaces textureCrc paletteCrc formatsize s)
    (ht : p.EnumeratesOrderedSurfaces textureCrc paletteCrc formatsize t) : s = t := by
  ext v
  rw [hs.mem_iff, ht.mem_iff]

/-- A query enumerates the selectors of its own texture exactly when the entries folded onto
its key have no other selector and the counter holds their number, or when it has none and
the counter wraps to zero. -/
theorem enumerates_exactOrderedSurfaceSelectors_iff :
    (Provider.run ops).EnumeratesOrderedSurfaces textureCrc paletteCrc formatsize
        (exactOrderedSurfaceSelectors (Provider.run ops).entries
          textureCrc paletteCrc formatsize) ↔
      foldedOrderedSurfaceSelectors (Provider.run ops).entries textureCrc paletteCrc formatsize =
          exactOrderedSurfaceSelectors (Provider.run ops).entries
            textureCrc paletteCrc formatsize ∧
        (exactOrderedSurfaceSelectors (Provider.run ops).entries
          textureCrc paletteCrc formatsize).card < 2 ^ 32 ∨
      exactOrderedSurfaceSelectors (Provider.run ops).entries
          textureCrc paletteCrc formatsize = ∅ ∧
        (foldedOrderedSurfaceSelectors (Provider.run ops).entries
          textureCrc paletteCrc formatsize).card = 2 ^ 32 := by
  have hle := length_orderedSurfaceList_le ops textureCrc paletteCrc formatsize
  rw [length_orderedSurfaceList] at hle
  have hcount := orderedSurfaceSelectorCount_toNat ops textureCrc paletteCrc formatsize
  obtain hsmall | hfull := Nat.lt_or_eq_of_le hle
  · have hall := enumerates_foldedOrderedSurfaceSelectors ops textureCrc paletteCrc formatsize hsmall
    constructor
    · intro h
      have heq := hall.unique textureCrc paletteCrc formatsize h
      exact Or.inl ⟨heq, heq ▸ hsmall⟩
    · rintro (⟨heq, _⟩ | ⟨_, hfull⟩)
      · exact heq ▸ hall
      · omega
  · rw [hfull, Nat.mod_self] at hcount
    constructor
    · intro h
      have hempty := h.count
      rw [hcount] at hempty
      exact Or.inr ⟨Finset.card_eq_zero.mp hempty.symm, hfull⟩
    · rintro (⟨heq, hlt⟩ | ⟨hempty, _⟩)
      · rw [← heq] at hlt
        omega
      · have hnone : ∀ i : UInt32, ¬ i <
            (Provider.run ops).orderedSurfaceSelectorCount textureCrc paletteCrc formatsize := by
          intro i hi
          rw [UInt32.lt_iff_toNat_lt] at hi
          omega
        refine ⟨by rw [hcount, hempty]; rfl, fun _ j _ hj => absurd hj (hnone j), fun v => ?_⟩
        rw [hempty]
        simp [hnone]

end Reachable

/-- One entry of format size zero with palette crc `0x10000` answers the query for palette
crc zero and format size one. -/
theorem orderedSurfaceSelectorCount_of_other_formatsize :
    ¬ ∀ (ops : List Op) (textureCrc paletteCrc : UInt32) (formatsize : UInt16),
      (Provider.run ops).EnumeratesOrderedSurfaces textureCrc paletteCrc formatsize
        (exactOrderedSurfaceSelectors (Provider.run ops).entries
          textureCrc paletteCrc formatsize) := by
  intro h
  let e : Entry :=
    { checksum64 := composeHiresChecksum64 0x1234 0x10000
      selectorChecksum64 := orderedSurfaceSelectorTag }
  have hcount := (h [.addEntry e] 0x1234 0 1).count
  revert hcount
  decide

end ParallelN64.Replacement
