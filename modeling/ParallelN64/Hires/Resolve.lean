import ParallelN64.Phrb.Decode
import ParallelN64.Replacement.Lookup

/-!
# Lookups by checksum and the resolution of an upload

A texture is resolved by a cascade of lookups: its sampled family, its sampled key, its checksum
among the native entries and then among the compat ones, and for palettized textures the low half of
the checksum. Each lookup prefers the exact format size to the generic one and takes the entry added
last.
-/

namespace ParallelN64.Hires

open ParallelN64.Core Replacement Phrb

/-- The sampled identity of a native entry. -/
structure NativeSampledIdentity extends SampledLookupKey where
  valid : Bool := false
  deriving DecidableEq, Repr

inductive ResolvedEntrySourceClass where
  | unknown
  | native
  | compat
  deriving DecidableEq, Repr

inductive CILow32ResolutionMode where
  | selectedDims
  | replacementDimsUnique
  | unique
  | any
  deriving DecidableEq, Repr

inductive ReplacementResolutionKind where
  | none
  | sampledExactSelector
  | sampledOrderedSurfaceReservedSelector
  | sampledFamilySingleton
  | exactNativeSampled
  | genericNativeIdentity
  | genericNativeChecksum
  | genericCompat
  | ciLow32SelectedDims
  | ciLow32ReplacementDimsUnique
  | ciLow32Unique
  | ciLow32Any
  deriving DecidableEq, Repr

/-- What the provider reports about the entry it resolved. -/
structure ReplacementResolution where
  available : Bool := false
  kind : ReplacementResolutionKind := .none
  replMeta : ReplacementMeta := {}
  identity : NativeSampledIdentity := {}
  sourceClass : ResolvedEntrySourceClass := .unknown
  resolvedChecksum64 : UInt64 := 0
  resolvedSelectorChecksum64 : UInt64 := 0
  orderedSurfaceSingleton : Bool := false
  matchedPreferredPalette : Bool := false
  deriving DecidableEq, Repr

def populateMetaFromEntry (entry : Entry) : ReplacementMeta where
  replW := entry.width
  replH := entry.height

def populateIdentityFromEntry (entry : Entry) : NativeSampledIdentity :=
  { entry.makeSampledLookupKey with valid := entry.hasNativeSampledIdentity }

def populateResolutionFromEntry (entry : Entry) (kind : ReplacementResolutionKind)
    (orderedSurfaceSingleton : Bool) : ReplacementResolution where
  available := true
  kind := kind
  replMeta := populateMetaFromEntry entry
  identity := populateIdentityFromEntry entry
  sourceClass := if entry.hasNativeSampledIdentity then .native else .compat
  resolvedChecksum64 := entry.checksum64
  resolvedSelectorChecksum64 := entry.selectorChecksum64
  orderedSurfaceSingleton := orderedSurfaceSingleton

section Indexed

variable (p : Provider)

def lastWhere (indices : List Nat) (pred : Entry → Bool) : Option Entry :=
  (indices.reverse.map p.entryAt).find? pred

/-- The last of the entries at some positions with a format size and a selector. -/
def findMatchingAt (indices : List Nat) (candidateFormatsize : UInt16)
    (candidateSelector : UInt64) : Option Entry :=
  lastWhere p indices fun entry =>
    entry.formatsize == candidateFormatsize && entry.selectorChecksum64 == candidateSelector

/-- The lookup by checksum: the selector and then the zero selector, each at the exact and
then at the generic format size; a query without either takes the entry added last. -/
def findIndexedEntry (indexMap : Table UInt64 (List Nat)) (checksum64 : UInt64)
    (formatsize : UInt16) (selectorChecksum64 : UInt64) : Option Entry :=
  match indexMap.lookup checksum64 with
  | none => none
  | some indices =>
    (if selectorChecksum64 ≠ 0 then
      findMatchingAt p indices formatsize selectorChecksum64 <|>
        findMatchingAt p indices 0 selectorChecksum64
    else none) <|> findMatchingAt p indices formatsize 0 <|> findMatchingAt p indices 0 0 <|>
      if selectorChecksum64 = 0 ∧ formatsize = 0 then indices.getLast?.map p.entryAt else none

def findNativeEntry (checksum64 : UInt64) (formatsize : UInt16) (selectorChecksum64 : UInt64) :
    Option Entry :=
  findIndexedEntry p p.nativeChecksumIndex checksum64 formatsize selectorChecksum64

def findCompatEntry (checksum64 : UInt64) (formatsize : UInt16) (selectorChecksum64 : UInt64) :
    Option Entry :=
  findIndexedEntry p p.compatChecksumIndex checksum64 formatsize selectorChecksum64

/-- Entries of one format size, from the last: the last one, unless the dimensions of an
earlier one differ from it. -/
def pickUniqueDims (indices : List Nat) (candidateFormatsize : UInt16) : Option Entry :=
  match (indices.reverse.map p.entryAt).filter (·.formatsize == candidateFormatsize) with
  | [] => none
  | selected :: others =>
    if others.all fun entry => entry.width == selected.width && entry.height == selected.height then
      some selected
    else none

def collectUniqueChecksums (indices : List Nat) (candidateFormatsize : UInt16) : List UInt64 :=
  ((indices.map p.entryAt).filter (·.formatsize == candidateFormatsize)).foldl
    (fun unique entry => pushUnique unique entry.checksum64) []

/-- The last entry of a format size with a palette checksum; zero stands for any palette. -/
def pickPalette (indices : List Nat) (candidateFormatsize : UInt16) (paletteCrcOrAny : UInt32) :
    Option Entry :=
  lastWhere p indices fun entry =>
    entry.formatsize == candidateFormatsize &&
      (paletteCrcOrAny == 0 || (entry.checksum64 >>> 32).toUInt32 == paletteCrcOrAny)

/-- The lookup of a palettized texture by the low half of its checksum, with the flag that an
entry of the preferred palette was taken. -/
def findCILow32Entry (checksumLow32 : UInt32) (formatsize : UInt16) (preferredPaletteCrc : UInt32)
    (replW replH : UInt32) (mode : CILow32ResolutionMode) : Option (Entry × Bool) :=
  if !p.enabled then none
  else match p.compatChecksumLow32Index.lookup checksumLow32 with
  | none => none
  | some indices =>
    match mode with
    | .selectedDims =>
      let matching candidateFormatsize := lastWhere p indices fun entry =>
        entry.formatsize == candidateFormatsize && (entry.width == replW && entry.height == replH)
      (matching formatsize <|> matching 0).map (·, false)
    | .replacementDimsUnique =>
      (pickUniqueDims p indices formatsize <|> pickUniqueDims p indices 0).map (·, false)
    | .unique =>
      let exact := collectUniqueChecksums p indices formatsize
      let unique := if exact.isEmpty then collectUniqueChecksums p indices 0 else exact
      match unique with
      | [checksum64] => (findCompatEntry p checksum64 formatsize 0).map (·, false)
      | _ => none
    | .any =>
      (if preferredPaletteCrc ≠ 0 then
        (pickPalette p indices formatsize preferredPaletteCrc <|>
          pickPalette p indices 0 preferredPaletteCrc).map (·, true)
      else none) <|>
        (pickPalette p indices formatsize 0 <|> pickPalette p indices 0 0).map (·, false)

/-- The entry an upload resolves to, with the kind of the resolution and the ordered-surface
flag: the sampled family, the sampled key, the native and then the compat checksum. -/
def findUploadCandidate (query : SampledFamilyLookupKey) (selectorChecksum64 : UInt64) :
    Option (Entry × ReplacementResolutionKind × Bool) :=
  match p.findSingletonSampledFamilyEntry query true with
  | some (entry, _, orderedSurfaceSingleton) =>
    some (entry, .sampledFamilySingleton, orderedSurfaceSingleton)
  | none =>
    match p.findSampledEntry query selectorChecksum64 with
    | some entry => some (entry, .sampledExactSelector, false)
    | none =>
      let checksum64 := composeHiresChecksum64 query.sampledLow32 query.sampledPaletteCrc
      match findNativeEntry p checksum64 query.formatsize selectorChecksum64 with
      | some entry => some (entry, .exactNativeSampled, false)
      | none =>
        match findCompatEntry p checksum64 query.formatsize selectorChecksum64 with
        | some entry => some (entry, .genericCompat, false)
        | none => none

def resolveUploadCandidate (query : SampledFamilyLookupKey) (selectorChecksum64 : UInt64) :
    Option ReplacementResolution :=
  if !p.enabled then none
  else (findUploadCandidate p query selectorChecksum64).map fun (entry, kind, singleton) =>
    populateResolutionFromEntry entry kind singleton

def CILow32ResolutionMode.kind : CILow32ResolutionMode → ReplacementResolutionKind
  | .selectedDims => .ciLow32SelectedDims
  | .replacementDimsUnique => .ciLow32ReplacementDimsUnique
  | .unique => .ciLow32Unique
  | .any => .ciLow32Any

def resolveCILow32Candidate (checksumLow32 : UInt32) (formatsize : UInt16)
    (preferredPaletteCrc : UInt32) (replW replH : UInt32) (mode : CILow32ResolutionMode) :
    Option ReplacementResolution :=
  if !p.enabled then none
  else (findCILow32Entry p checksumLow32 formatsize preferredPaletteCrc replW replH mode).map
    fun (entry, matchedPreferred) =>
      { populateResolutionFromEntry entry mode.kind false with
        matchedPreferredPalette := matchedPreferred }

end Indexed

end ParallelN64.Hires
