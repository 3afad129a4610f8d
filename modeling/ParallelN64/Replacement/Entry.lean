import ParallelN64.Core.Word

/-!
# Replacement entries, their lookup keys and the duplicate preference

An entry is one replacement image of a loaded pack. The provider indexes it by
projections of its fields; entries that collide on the full sampled key are
ordered by a chain of comparisons, shown here to be a linear order of the fields
it reads, in which ties share their replacement id and source file.
-/

namespace ParallelN64.Replacement

open ParallelN64.Core

/-- One replacement image, as stored by the provider. -/
structure Entry where
  sourcePath : Bytes := []
  phrbPolicyKey : Bytes := []
  phrbReplacementId : Bytes := []
  phrbSampledObjectId : Bytes := []
  checksum64 : UInt64 := 0
  dataOffset : UInt64 := 0
  dataSize : UInt32 := 0
  width : UInt32 := 0
  height : UInt32 := 0
  format : UInt32 := 0
  textureFormat : UInt16 := 0
  pixelType : UInt16 := 0
  formatsize : UInt16 := 0
  selectorChecksum64 : UInt64 := 0
  sampledFmt : UInt32 := 0
  sampledSiz : UInt32 := 0
  sampledTexOffset : UInt32 := 0
  sampledStride : UInt32 := 0
  sampledWidth : UInt32 := 0
  sampledHeight : UInt32 := 0
  sampledLow32 : UInt32 := 0
  sampledPaletteCrc : UInt32 := 0
  sampledEntryPcrc : UInt32 := 0
  sampledSparsePcrc : UInt32 := 0
  hasNativeSampledIdentity : Bool := false
  isRuntimeFamilyCompat : Bool := false
  isHires : Bool := false
  inlineBlob : Bool := false
  blob : Bytes := []
  deriving DecidableEq, Repr

/-- The sampled identity of a texture family, without a selector. -/
structure SampledFamilyLookupKey where
  sampledFmt : UInt32 := 0
  sampledSiz : UInt32 := 0
  sampledTexOffset : UInt32 := 0
  sampledStride : UInt32 := 0
  sampledWidth : UInt32 := 0
  sampledHeight : UInt32 := 0
  sampledLow32 : UInt32 := 0
  sampledPaletteCrc : UInt32 := 0
  formatsize : UInt16 := 0
  deriving DecidableEq, Repr

/-- The full sampled key: a family together with a selector. -/
structure SampledLookupKey extends SampledFamilyLookupKey where
  selectorChecksum64 : UInt64 := 0
  deriving DecidableEq, Repr

/-- The family key read off an entry's sampled fields. -/
def Entry.makeSampledFamilyLookupKey (e : Entry) : SampledFamilyLookupKey where
  sampledFmt := e.sampledFmt
  sampledSiz := e.sampledSiz
  sampledTexOffset := e.sampledTexOffset
  sampledStride := e.sampledStride
  sampledWidth := e.sampledWidth
  sampledHeight := e.sampledHeight
  sampledLow32 := e.sampledLow32
  sampledPaletteCrc := e.sampledPaletteCrc
  formatsize := e.formatsize

def Entry.makeSampledLookupKey (e : Entry) : SampledLookupKey :=
  { e.makeSampledFamilyLookupKey with selectorChecksum64 := e.selectorChecksum64 }

def orderedSurfaceSelectorTag : UInt64 := 0x5352464300000000

def orderedSurfaceSelectorMask : UInt64 := 0xffffffff00000000

def isOrderedSurfaceSelector (selectorChecksum64 : UInt64) : Bool :=
  selectorChecksum64 &&& orderedSurfaceSelectorMask == orderedSurfaceSelectorTag

def composeHiresChecksum64 (textureCrc paletteCrc : UInt32) : UInt64 :=
  paletteCrc.toUInt64 <<< 32 ||| textureCrc.toUInt64

/-- The key of the ordered-surface table: the format size is folded into the
checksum's top sixteen bits by exclusive or. -/
def composeOrderedSurfaceIndexKey (checksum64 : UInt64) (formatsize : UInt16) : UInt64 :=
  checksum64 ^^^ (formatsize.toUInt64 <<< 48)

/-- Insert a selector into a sorted list unless it is already present. -/
def appendUniqueOrderedSurfaceSelector (selectors : List UInt64) (selectorChecksum64 : UInt64) :
    List UInt64 :=
  if selectorChecksum64 ∈ selectors then selectors
  else (selectors ++ [selectorChecksum64]).insertionSort (· ≤ ·)

/-- Three-way string comparison in which the empty string comes last. -/
def compareStringPref (a b : Bytes) : Int :=
  let aEmpty := a.isEmpty
  let bEmpty := b.isEmpty
  if aEmpty ≠ bEmpty then (if aEmpty then 1 else -1)
  else if a < b then -1
  else if b < a then 1
  else 0

def compareUint32 (a b : UInt32) : Int :=
  if a < b then -1 else if b < a then 1 else 0

/-- Whether a later entry with the same sampled key replaces the active one. -/
def preferSampledDuplicateCandidate (active candidate : Entry) : Bool :=
  let cmp := compareStringPref candidate.phrbReplacementId active.phrbReplacementId
  if cmp ≠ 0 then decide (cmp < 0) else
  let cmp := compareStringPref candidate.sourcePath active.sourcePath
  if cmp ≠ 0 then decide (cmp < 0) else
  let cmp := compareUint32 candidate.width active.width
  if cmp ≠ 0 then decide (cmp < 0) else
  let cmp := compareUint32 candidate.height active.height
  if cmp ≠ 0 then decide (cmp < 0) else
  let cmp := compareUint32 candidate.dataSize active.dataSize
  if cmp ≠ 0 then decide (cmp < 0) else
  if candidate.blob.length ≠ active.blob.length then
    decide (candidate.blob.length < active.blob.length)
  else if candidate.blob < active.blob then true
  else if active.blob < candidate.blob then false
  else false

def textRank (s : Bytes) : Bool ×ₗ Bytes := toLex (s.isEmpty, s)

/-- The rank of an entry among duplicates: the compared fields in order. -/
def Entry.rank (e : Entry) :
    (Bool ×ₗ Bytes) ×ₗ (Bool ×ₗ Bytes) ×ₗ Nat ×ₗ Nat ×ₗ Nat ×ₗ Nat ×ₗ Bytes :=
  toLex (textRank e.phrbReplacementId, toLex (textRank e.sourcePath, toLex (e.width.toNat,
    toLex (e.height.toNat, toLex (e.dataSize.toNat, toLex (e.blob.length, e.blob))))))

theorem textRank_injective : Function.Injective textRank := by
  intro a b h
  exact congrArg (fun r => (ofLex r).2) h

theorem compares_compareStringPref (a b : Bytes) :
    Compares (compareStringPref a b) (textRank a) (textRank b) := by
  have hlt : textRank a < textRank b ↔
      a.isEmpty < b.isEmpty ∨ a.isEmpty = b.isEmpty ∧ a < b := Prod.Lex.toLex_lt_toLex
  have heq : textRank a = textRank b ↔ a = b := textRank_injective.eq_iff
  unfold compareStringPref
  by_cases he : a.isEmpty = b.isEmpty
  · rcases lt_trichotomy a b with h | h | h
    · exact ⟨by simp [hlt, he, h], by simp [heq, he, h, ne_of_lt h]⟩
    · subst h
      exact ⟨by simp, by simp⟩
    · exact ⟨by simp [hlt, he, h, not_lt_of_gt h], by simp [heq, he, h, not_lt_of_gt h, ne_of_gt h]⟩
  · have hne : a ≠ b := fun h => he (congrArg List.isEmpty h)
    cases ha : a.isEmpty <;> cases hb : b.isEmpty
    · simp [ha, hb] at he
    · exact ⟨by simp [hlt, ha, hb], by simp [heq, hne]⟩
    · exact ⟨by simp [hlt, ha, hb], by simp [heq, hne]⟩
    · simp [ha, hb] at he

theorem compares_compareUint32 (a b : UInt32) :
    Compares (compareUint32 a b) a.toNat b.toNat := by
  unfold compareUint32
  simp only [UInt32.lt_iff_toNat_lt]
  constructor <;> split_ifs <;> simp <;> omega

theorem blob_preferred_iff (a b : Bytes) :
    (if b.length ≠ a.length then decide (b.length < a.length)
      else if b < a then true else if a < b then false else false) = true ↔
      toLex (b.length, b) < toLex (a.length, a) := by
  rw [Prod.Lex.toLex_lt_toLex]
  by_cases h : b.length = a.length
  · simp [h]
  · simp [h]

theorem preferSampledDuplicateCandidate_iff (active candidate : Entry) :
    preferSampledDuplicateCandidate active candidate = true ↔ candidate.rank < active.rank :=
  (compares_compareStringPref _ _).lex_iff <| (compares_compareStringPref _ _).lex_iff <|
    (compares_compareUint32 _ _).lex_iff <| (compares_compareUint32 _ _).lex_iff <|
    (compares_compareUint32 _ _).lex_iff <| blob_preferred_iff _ _

theorem Entry.sourcePath_eq_of_rank_eq {a b : Entry} (h : a.rank = b.rank) :
    a.sourcePath = b.sourcePath :=
  textRank_injective (congrArg (fun r => (ofLex (ofLex r).2).1) h)

theorem pairwise_appendUniqueOrderedSurfaceSelector {l : List UInt64} (s : UInt64)
    (h : l.Pairwise (· < ·)) :
    (appendUniqueOrderedSurfaceSelector l s).Pairwise (· < ·) := by
  unfold appendUniqueOrderedSurfaceSelector
  split
  next => exact h
  next hs => exact pairwise_insertionSort_append h hs

theorem mem_appendUniqueOrderedSurfaceSelector {l : List UInt64} {s t : UInt64} :
    t ∈ appendUniqueOrderedSurfaceSelector l s ↔ t = s ∨ t ∈ l := by
  unfold appendUniqueOrderedSurfaceSelector
  split
  next hs =>
    constructor
    · exact Or.inr
    · rintro (rfl | h)
      · exact hs
      · exact h
  next =>
    rw [List.mem_insertionSort, List.mem_append, List.mem_singleton]
    exact or_comm

end ParallelN64.Replacement
