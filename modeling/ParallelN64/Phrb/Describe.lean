import ParallelN64.Phrb.Emit
import ParallelN64.Phrb.Load

/-!
# The entries a manifest describes

A manifest describes entries independently of how a package stores them: records that are not
runtime-ready describe none, and a candidate of any other record describes its entries when its
dimensions and its supplied blob are not empty.
-/

namespace ParallelN64.Phrb

open ParallelN64.Core Replacement

def word32 (n : Int) : UInt32 := .ofNat n.toNat

/-- The identity of a record as packed words. -/
structure RecordIdentity where
  fmt : UInt32
  siz : UInt32
  off : UInt32
  stride : UInt32
  width : UInt32
  height : UInt32
  formatsize : UInt32
  sampledLow32 : UInt32
  sampledEntryPcrc : UInt32
  sampledSparsePcrc : UInt32
  deriving DecidableEq, Repr

/-- The numbers of a candidate as packed words. -/
structure CandidateNumbers where
  width : UInt32
  height : UInt32
  legacyFormatsize : UInt16
  selectorChecksum64 : UInt64
  legacyChecksum64 : UInt64
  deriving DecidableEq, Repr

section Describe

-- Conversion of a text to an integer in a base; the results hold for any conversion.
variable (parseInt : Nat → Text → Option Int)

def ManifestRecord.identity (record : ManifestRecord) : Option RecordIdentity := do
  let identity := record.canonicalIdentity
  let (widthStr, heightStr) ← splitX identity.wh
  let fmt ← identity.fmt.toInt parseInt
  let siz ← identity.siz.toInt parseInt
  let off ← identity.off.toInt parseInt
  let stride ← identity.stride.toInt parseInt
  let width ← parseInt 10 widthStr
  let height ← parseInt 10 heightStr
  let formatsize ← identity.formatsize.toInt parseInt
  let sampledLow32 ← parseU32Identity parseInt identity.sampledLow32
  let sampledEntryPcrc ← parseU32Identity parseInt identity.sampledEntryPcrc
  let sampledSparsePcrc ← parseU32Identity parseInt identity.sampledSparsePcrc
  return {
    fmt := word32 fmt
    siz := word32 siz
    off := word32 off
    stride := word32 stride
    width := word32 width
    height := word32 height
    formatsize := word32 formatsize
    sampledLow32 := word32 sampledLow32
    sampledEntryPcrc := word32 sampledEntryPcrc
    sampledSparsePcrc := word32 sampledSparsePcrc }

def AssetCandidate.numbers (candidate : AssetCandidate) : Option CandidateNumbers := do
  let selectorChecksum64 ←
    parseInt 16 (candidate.selectorChecksum64.orElse (.str ['0'])).toText
  let legacyChecksum64 ←
    parseInt 16 ((Scalar.str candidate.legacyChecksum64).orElse (.str ['0'])).toText
  let width ← candidate.width.toInt parseInt
  let height ← candidate.height.toInt parseInt
  let legacyFormatsize ← candidate.legacyFormatsize.toInt parseInt
  return {
    width := word32 width
    height := word32 height
    legacyFormatsize := .ofNat legacyFormatsize.toNat
    selectorChecksum64 := .ofNat selectorChecksum64.toNat
    legacyChecksum64 := .ofNat legacyChecksum64.toNat }

def RecordIdentity.isFamily (identity : RecordIdentity) : Bool :=
  identity.fmt == 0 && identity.siz == 0 && identity.off == 0 && identity.stride == 0 &&
    identity.width == 0 && identity.height == 0

section Candidate

variable (path : Bytes) (record : ManifestRecord) (identity : RecordIdentity)
  (candidate : AssetCandidate) (numbers : CandidateNumbers) (storage : Storage)

/-- The native entry of a candidate under a palette crc, for a blob of a given place and
size; pixel formats are narrowed to sixteen bits. -/
def nativeEntry (offset size : Nat) (paletteCrc : UInt32) : Entry where
  sourcePath := path
  phrbPolicyKey := encodeUtf8 record.policyKey
  phrbReplacementId := encodeUtf8 candidate.replacementId
  phrbSampledObjectId := encodeUtf8 record.sampledObjectId
  checksum64 := composeHiresChecksum64 identity.sampledLow32 paletteCrc
  dataOffset := .ofNat offset
  dataSize := .ofNat size
  width := numbers.width
  height := numbers.height
  format := word32 storage.format
  textureFormat := (word32 storage.textureFormat).toUInt16
  pixelType := (word32 storage.pixelType).toUInt16
  formatsize := identity.formatsize.toUInt16
  selectorChecksum64 := numbers.selectorChecksum64
  sampledFmt := identity.fmt
  sampledSiz := identity.siz
  sampledTexOffset := identity.off
  sampledStride := identity.stride
  sampledWidth := identity.width
  sampledHeight := identity.height
  sampledLow32 := identity.sampledLow32
  sampledPaletteCrc := paletteCrc
  sampledEntryPcrc := identity.sampledEntryPcrc
  sampledSparsePcrc := identity.sampledSparsePcrc
  hasNativeSampledIdentity := true
  isHires := true

/-- The compat entry of a candidate of a runtime family. -/
def compatEntry (offset size : Nat) : Entry where
  sourcePath := path
  phrbPolicyKey := encodeUtf8 record.policyKey
  phrbReplacementId := encodeUtf8 candidate.replacementId
  phrbSampledObjectId := encodeUtf8 record.sampledObjectId
  checksum64 := numbers.legacyChecksum64
  dataOffset := .ofNat offset
  dataSize := .ofNat size
  width := numbers.width
  height := numbers.height
  format := word32 storage.format
  textureFormat := (word32 storage.textureFormat).toUInt16
  pixelType := (word32 storage.pixelType).toUInt16
  formatsize := if numbers.legacyFormatsize != 0 then numbers.legacyFormatsize
    else identity.formatsize.toUInt16
  selectorChecksum64 := numbers.selectorChecksum64
  sampledLow32 := identity.sampledLow32
  sampledPaletteCrc := (numbers.legacyChecksum64 >>> 32).toUInt32
  sampledEntryPcrc := identity.sampledEntryPcrc
  sampledSparsePcrc := identity.sampledSparsePcrc
  hasNativeSampledIdentity := false
  isRuntimeFamilyCompat := true
  isHires := true

/-- The entries of a candidate whose blob has a given place and size. -/
def candidateEntries (offset size : Nat) : List Entry :=
  if numbers.width = 0 ∨ numbers.height = 0 ∨ size = 0 ∨ 0xffffffff < size then []
  else if identity.isFamily then
    if numbers.legacyChecksum64 = 0 then []
    else [compatEntry path record identity candidate numbers storage offset size]
  else (paletteCrcs identity.sampledSparsePcrc identity.sampledEntryPcrc).map
    (nativeEntry path record identity candidate numbers storage offset size)

end Candidate

section Records

variable (mode : AssetStorageMode) (assetRgbaBlobs : Text → Option Bytes)
  (assetBlobLoader : Option AssetBlobLoader) (path : Bytes) (start : Nat)

/-- The entries of the candidates of a runtime-ready record with their blobs, when `offset`
bytes of blobs precede them, and the bytes of blobs that precede the next record. -/
def describedCandidates (recordIndex : Nat) (record : ManifestRecord) (identity : RecordIdentity) :
    Nat → List AssetCandidate → Option (List (Entry × Bytes) × Nat)
  | offset, [] => some ([], offset)
  | offset, candidate :: candidates => do
    let numbers ← candidate.numbers parseInt
    let storage ← storage parseInt mode assetRgbaBlobs record candidate
    let blob ← suppliedBlob assetRgbaBlobs assetBlobLoader recordIndex record candidate
    let (rest, total) ←
      describedCandidates recordIndex record identity (offset + blob.length) candidates
    return ((candidateEntries path record identity candidate numbers storage (start + offset)
      blob.length).map (·, blob) ++ rest, total)

/-- The entries of all records with their blobs. -/
def describedRecords : Nat → Nat → List ManifestRecord → Option (List (Entry × Bytes))
  | _, _, [] => some []
  | recordIndex, offset, record :: records =>
    if !record.runtimeReady.truthy then describedRecords (recordIndex + 1) offset records
    else do
      let identity ← record.identity parseInt
      let (entries, offset) ← describedCandidates parseInt mode assetRgbaBlobs assetBlobLoader path
        start recordIndex record identity offset record.assetCandidates
      let rest ← describedRecords (recordIndex + 1) offset records
      return entries ++ rest

end Records

theorem recordFields_eq_some {offsets : Table Text Nat} {record : ManifestRecord} {vs : List Int}
    (h : recordFields parseInt offsets record = some vs) :
    ∃ policyKeyOff sampledObjectIdOff : Nat, ∃ recordFlags count : Int, ∃ identity,
      offsets.lookup record.policyKey = some policyKeyOff ∧
      offsets.lookup record.sampledObjectId = some sampledObjectIdOff ∧
      (record.runtimeReady.truthy = true → recordFlags % 2 = 1) ∧
      record.assetCandidateCount.index = some count ∧
      record.identity parseInt = some identity ∧
      PHRBRecord.ofFieldsV4 (vs.map Int.toNat) =
        { policyKeyOffset := word32 policyKeyOff
          sampledObjectIdOffset := word32 sampledObjectIdOff
          recordFlags := word32 recordFlags
          fmt := identity.fmt
          siz := identity.siz
          texOffset := identity.off
          stride := identity.stride
          width := identity.width
          height := identity.height
          formatsize := identity.formatsize
          sampledLow32 := identity.sampledLow32
          sampledEntryPcrc := identity.sampledEntryPcrc
          sampledSparsePcrc := identity.sampledSparsePcrc
          assetCandidateCount := word32 count } ∧
      recordFlags ∈ vs ∧ count ∈ vs := by
  obtain ⟨policyKeyOff, hpolicy, h⟩ := Option.bind_eq_some_iff.mp h
  obtain ⟨sampledObjectIdOff, hobject, h⟩ := Option.bind_eq_some_iff.mp h
  obtain ⟨⟨widthStr, heightStr⟩, hwh, h⟩ := Option.bind_eq_some_iff.mp h
  obtain ⟨flags, _, h⟩ := Option.bind_eq_some_iff.mp h
  obtain ⟨fmt, hfmt, h⟩ := Option.bind_eq_some_iff.mp h
  obtain ⟨siz, hsiz, h⟩ := Option.bind_eq_some_iff.mp h
  obtain ⟨off, hoff, h⟩ := Option.bind_eq_some_iff.mp h
  obtain ⟨stride, hstride, h⟩ := Option.bind_eq_some_iff.mp h
  obtain ⟨width, hwidth, h⟩ := Option.bind_eq_some_iff.mp h
  obtain ⟨height, hheight, h⟩ := Option.bind_eq_some_iff.mp h
  obtain ⟨formatsize, hformatsize, h⟩ := Option.bind_eq_some_iff.mp h
  obtain ⟨low32, hlow32, h⟩ := Option.bind_eq_some_iff.mp h
  obtain ⟨entryPcrc, hentryPcrc, h⟩ := Option.bind_eq_some_iff.mp h
  obtain ⟨sparsePcrc, hsparsePcrc, h⟩ := Option.bind_eq_some_iff.mp h
  obtain ⟨count, hcount, h⟩ := Option.bind_eq_some_iff.mp h
  obtain rfl := Option.some.inj h
  refine ⟨policyKeyOff, sampledObjectIdOff, _, count,
    { fmt := word32 fmt
      siz := word32 siz
      off := word32 off
      stride := word32 stride
      width := word32 width
      height := word32 height
      formatsize := word32 formatsize
      sampledLow32 := word32 low32
      sampledEntryPcrc := word32 entryPcrc
      sampledSparsePcrc := word32 sparsePcrc },
    hpolicy, hobject, ?_, hcount, ?_, rfl, by simp, by simp⟩
  · intro hready
    rw [if_pos hready, orRuntimeReady]
    split_ifs <;> omega
  · simp only [ManifestRecord.identity, hwh, hfmt, hsiz, hoff, hstride, hwidth, hheight,
      hformatsize, hlow32, hentryPcrc, hsparsePcrc, Option.bind_eq_bind, Option.bind_some]
    rfl

theorem assetFields_eq_some {offsets : Table Text Nat} {asset : StoredAsset} {ws : List Int}
    (h : assetFields parseInt offsets asset = some ws) :
    ∃ replacementIdOff : Nat, ∃ numbers,
      offsets.lookup asset.candidate.replacementId = some replacementIdOff ∧
      asset.candidate.numbers parseInt = some numbers ∧
      PHRBAsset.ofFieldsV7 (ws.map Int.toNat) =
        { replacementIdOffset := word32 replacementIdOff
          width := numbers.width
          height := numbers.height
          format := word32 asset.storage.format
          textureFormat := word32 asset.storage.textureFormat
          pixelType := word32 asset.storage.pixelType
          legacyFormatsize := numbers.legacyFormatsize
          selectorChecksum64 := numbers.selectorChecksum64
          legacyChecksum64 := numbers.legacyChecksum64
          rgbaOffset := .ofNat asset.blobOffset.toNat
          rgbaSize := .ofNat asset.storage.blobSize.toNat } := by
  obtain ⟨selector, hselector, h⟩ := Option.bind_eq_some_iff.mp h
  obtain ⟨legacy, hlegacy, h⟩ := Option.bind_eq_some_iff.mp h
  obtain ⟨replacementIdOff, hreplacement, h⟩ := Option.bind_eq_some_iff.mp h
  obtain ⟨_, _, h⟩ := Option.bind_eq_some_iff.mp h
  obtain ⟨_, _, h⟩ := Option.bind_eq_some_iff.mp h
  obtain ⟨_, _, h⟩ := Option.bind_eq_some_iff.mp h
  obtain ⟨width, hwidth, h⟩ := Option.bind_eq_some_iff.mp h
  obtain ⟨height, hheight, h⟩ := Option.bind_eq_some_iff.mp h
  obtain ⟨legacyFormatsize, hlegacyFormatsize, h⟩ := Option.bind_eq_some_iff.mp h
  obtain rfl := Option.some.inj h
  refine ⟨replacementIdOff,
    { width := word32 width
      height := word32 height
      legacyFormatsize := .ofNat legacyFormatsize.toNat
      selectorChecksum64 := .ofNat selector.toNat
      legacyChecksum64 := .ofNat legacy.toNat },
    hreplacement, ?_, rfl⟩
  simp only [AssetCandidate.numbers, hselector, hlegacy, hwidth, hheight, hlegacyFormatsize,
    Option.bind_eq_bind, Option.bind_some]
  rfl

end Describe

end ParallelN64.Phrb
