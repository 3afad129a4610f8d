import ParallelN64.Surfaces.Binding

/-!
# What a compiled surface holds

The binding is compared with what an ordered surface is for: one candidate for each ordered
selector, the unresolved sequences numbered without gaps and bound to their nearest neighbours, and
the upload selectors those of resolved slots.
-/

namespace ParallelN64.Surfaces

open ParallelN64.Core Phrb

/-- The resolved slot nearest to a sequence, the earlier one on a tie. -/
structure Nearest (slots : List Slot) (seq : Int) (slot : Slot) : Prop where
  mem : slot ∈ slots
  resolved : slot.resolved = true
  closest : ∀ t ∈ slots, t.resolved = true →
    (slot.sequenceIndex - seq).natAbs < (t.sequenceIndex - seq).natAbs ∨
      (slot.sequenceIndex - seq).natAbs = (t.sequenceIndex - seq).natAbs ∧
        slot.sequenceIndex ≤ t.sequenceIndex

section Search

variable {slots : List Slot} (hslots : (slots.map Slot.sequenceIndex).Nodup)

include hslots

theorem eq_of_sequenceIndex_eq {s t : Slot} (hs : s ∈ slots) (ht : t ∈ slots)
    (h : s.sequenceIndex = t.sequenceIndex) : s = t :=
  List.inj_on_of_nodup_map hslots hs ht h

variable {slot : Slot} {seq : Int}

theorem Nearest.eq {near : Slot} (h : Nearest slots seq slot) (hnear : Nearest slots seq near) :
    slot = near := by
  apply eq_of_sequenceIndex_eq hslots h.mem hnear.mem
  have hcloser := h.closest near hnear.mem hnear.resolved
  have hcloser' := hnear.closest slot h.mem h.resolved
  omega

end Search

section Collect

variable {lower : Text → Text} {candidates : List TransportData}
  {cachePath sampledLow32 : Text}

/-- The candidate stands for an ordered source. -/
structure CandidateOf (source : OrderedSource) (candidate : SurfaceCandidate) : Prop where
  replacementId : candidate.replacementId = source.slot.replacementId
  selector : candidate.selectorChecksum64 = makeOrderedSurfaceSelector source.number
  sequenceIndex : candidate.surfaceSequenceIndex = some source.sequenceIndex

/-- The candidate stands for the upload key of a slot. -/
structure UploadOf (lower : Text → Text) (slot : Slot) (candidate : SurfaceCandidate) : Prop where
  resolved : slot.resolved = true
  nonempty : (lower slot.uploadKey).isEmpty = false
  replacementId : candidate.replacementId = slot.replacementId
  selector : candidate.selectorChecksum64 = lower slot.uploadKey
  sequenceIndex : candidate.surfaceSequenceIndex = none

variable {slots : List Slot} {out : Selectors} {sources : List OrderedSource}

def sourceKey (source : OrderedSource) : Text × Text :=
  (source.slot.replacementId, makeOrderedSurfaceSelector source.number)

/-- The last source under a key. -/
def lastSource (sources : List OrderedSource) (key : Text × Text) : Option OrderedSource :=
  sources.reverse.find? fun source => sourceKey source == key

/-- The candidates of a surface: those of its ordered sources and of its upload keys, at
most one for a replacement and a selector. -/
structure Collected (lower : Text → Text) (slots : List Slot) (uploads : Bool)
    (sources : List OrderedSource) (collected : List SurfaceCandidate) : Prop where
  nodup : collected.Nodup
  unique : ∀ c ∈ collected, ∀ c' ∈ collected, c.replacementId = c'.replacementId →
    c.selectorChecksum64 = c'.selectorChecksum64 → c = c'
  kinds : ∀ c ∈ collected,
    (∃ source, lastSource sources (sourceKey source) = some source ∧ CandidateOf source c) ∨
      uploads = true ∧ ∃ slot ∈ slots, UploadOf lower slot c
  ordered : ∀ key source, lastSource sources key = some source →
    ∃ c ∈ collected, CandidateOf source c
  uploaded : uploads = true → ∀ slot ∈ slots, slot.resolved = true →
    (lower slot.uploadKey).isEmpty = false →
    ∃ c ∈ collected, c.replacementId = slot.replacementId ∧
      c.selectorChecksum64 = lower slot.uploadKey

theorem Collected.perm {uploads : Bool} {collected collected' : List SurfaceCandidate}
    (h : Collected lower slots uploads sources collected) (hperm : collected.Perm collected') :
    Collected lower slots uploads sources collected' := by
  refine ⟨hperm.nodup_iff.mp h.nodup, ?_, ?_, ?_, ?_⟩
  · intro c hc c' hc'
    exact h.unique c (hperm.mem_iff.mpr hc) c' (hperm.mem_iff.mpr hc')
  · exact fun c hc => h.kinds c (hperm.mem_iff.mpr hc)
  · intro key source hlast
    obtain ⟨c, hc, hof⟩ := h.ordered key source hlast
    exact ⟨c, hperm.mem_iff.mp hc, hof⟩
  · intro hemit slot hslot hresolved hnonempty
    obtain ⟨c, hc, hsame⟩ := h.uploaded hemit slot hslot hresolved hnonempty
    exact ⟨c, hperm.mem_iff.mp hc, hsame⟩

end Collect

/-- The sequence indices of the slots, and those of the unresolved sequences, are pairwise
distinct. -/
structure Surface.Distinct (surface : Surface) : Prop where
  slots : (surface.slots.map Slot.sequenceIndex).Nodup
  unresolved : surface.unresolvedSequences.Nodup

/-- An ordered surface has a selector for a number that stands for a sequence: the unresolved
sequences are numbered in order, and without any each resolved slot has its own index. -/
def Wanted (surface : Surface) (number seq : Int) : Prop :=
  if surface.unresolvedSequences.isEmpty then
    number = seq ∧ ∃ slot ∈ surface.slots, slot.resolved = true ∧ slot.sequenceIndex = seq
  else ∃ i : Nat, number = i ∧ (sortedUnresolved surface)[i]? = some seq

def SurfaceCandidate.ordered (candidate : SurfaceCandidate) : Bool :=
  candidate.surfaceSequenceIndex.isSome

def OrderedSource.selector (source : OrderedSource) : Text :=
  makeOrderedSurfaceSelector source.number

/-- The last source under an ordered selector, whatever its replacement. -/
def lastUnder (sources : List OrderedSource) (number : Int) : Option OrderedSource :=
  sources.reverse.find? fun source => source.selector == makeOrderedSurfaceSelector number

/-- The sources are those that an ordered surface is for. -/
structure Fits (surface : Surface) (sources : List OrderedSource) : Prop where
  single : ∀ s ∈ sources, ∀ s' ∈ sources, s.selector = s'.selector →
    s.slot.replacementId = s'.slot.replacementId
  numbered : ∀ s ∈ sources, ∃ number seq, Wanted surface number seq ∧
    s.selector = makeOrderedSurfaceSelector number
  bound : ∀ number seq, Wanted surface number seq → ∃ s slot,
    lastUnder sources number = some s ∧ s.sequenceIndex = seq ∧
      Nearest surface.slots seq slot ∧ s.slot.replacementId = slot.replacementId

section Sources

variable {surface : Surface} {sources : List OrderedSource} {source : OrderedSource}

end Sources

section Fits

variable {surface : Surface} (h : surface.Distinct)

include h

end Fits

section Compile

variable {lower : Text → Text} {surface : Surface} {uploads : Bool}
  {candidates : List SurfaceCandidate}

end Compile

/-- Transport data of a one-pixel replacement. -/
def sampleData (replacementId : Text) : TransportData where
  replacementId := replacementId
  checksum64 := []
  textureCrc := []
  paletteCrc := []
  formatsize := 0
  width := 1
  height := 1
  dataSize := 4

/-- An entry whose only replacement is `a`. -/
def sampleEntry (selectorMode : Text) (slots : List Slot) (unresolvedSequences : List Int) :
    SurfaceEntry where
  surface :=
    { surfaceId := ['s']
      sampledLow32 := ['1']
      slots := slots
      unresolvedSequences := unresolvedSequences
      slotCount := slots.length
      selectorMode := []
      shapeHint := [] }
  candidateSnapshots := [sampleData ['a']]
  selectorMode := selectorMode
  shapeHint := []
  allowRuntimeSelectorCompile := false
  sourceCachePath := []
  canonicalIdentity := some
    { fmt := .int 0
      siz := .int 0
      off := .int 0
      stride := .int 0
      wh := ['1', 'x', '1']
      formatsize := .int 0 }

end ParallelN64.Surfaces
