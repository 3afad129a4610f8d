import ParallelN64.Core.Layout

/-!
# The packed structures of a replacement package

A package file is a header, a record table, an asset table, a string table and the
image blobs. Six versions of the format are read; they differ in whether records carry
flags and in which columns an asset row has.
-/

namespace ParallelN64.Phrb

open ParallelN64.Core

def glRgba8 : UInt32 := 0x8058

def glRgb8 : UInt32 := 0x8051

def glRgba : UInt16 := 0x1908

def glRgb : UInt16 := 0x1907

def glLuminance : UInt16 := 0x1909

def glUnsignedByte : UInt16 := 0x1401

def glUnsignedShort4444 : UInt16 := 0x8033

def glUnsignedShort5551 : UInt16 := 0x8034

def glUnsignedShort565 : UInt16 := 0x8363

def phrbRecordFlagRuntimeReady : UInt32 := 1

/-- The four bytes `PHRB`. -/
def phrbMagic : Bytes := [0x50, 0x48, 0x52, 0x42]

/-- The file header. -/
structure PHRBHeader where
  magic : Bytes := []
  version : UInt32 := 0
  recordCount : UInt32 := 0
  assetCount : UInt32 := 0
  recordTableOffset : UInt32 := 0
  assetTableOffset : UInt32 := 0
  stringTableOffset : UInt32 := 0
  blobOffset : UInt32 := 0
  deriving DecidableEq, Repr

def headerSize : Nat := 32

def headerLayout : List Nat := [4, 4, 4, 4, 4, 4, 4]

def PHRBHeader.ofBytes (bytes : Bytes) : PHRBHeader :=
  match readFields headerLayout (bytes.drop 4) with
  | [version, recordCount, assetCount, recordTableOffset, assetTableOffset, stringTableOffset,
      blobOffset] =>
    { magic := bytes.take 4
      version := .ofNat version
      recordCount := .ofNat recordCount
      assetCount := .ofNat assetCount
      recordTableOffset := .ofNat recordTableOffset
      assetTableOffset := .ofNat assetTableOffset
      stringTableOffset := .ofNat stringTableOffset
      blobOffset := .ofNat blobOffset }
  | _ => {}

/-- A record row; rows from version 4 on carry `recordFlags`, and older ones are read as
runtime-ready. -/
structure PHRBRecord where
  policyKeyOffset : UInt32 := 0
  sampledObjectIdOffset : UInt32 := 0
  recordFlags : UInt32 := phrbRecordFlagRuntimeReady
  fmt : UInt32 := 0
  siz : UInt32 := 0
  texOffset : UInt32 := 0
  stride : UInt32 := 0
  width : UInt32 := 0
  height : UInt32 := 0
  formatsize : UInt32 := 0
  sampledLow32 : UInt32 := 0
  sampledEntryPcrc : UInt32 := 0
  sampledSparsePcrc : UInt32 := 0
  assetCandidateCount : UInt32 := 0
  deriving DecidableEq, Repr

def recordLayoutV2 : List Nat := [4, 4, 4, 4, 4, 4, 4, 4, 4, 4, 4, 4, 4]

def recordLayoutV4 : List Nat := [4, 4, 4, 4, 4, 4, 4, 4, 4, 4, 4, 4, 4, 4]

def PHRBRecord.ofFieldsV2 : List Nat → PHRBRecord
  | [policyKeyOffset, sampledObjectIdOffset, fmt, siz, texOffset, stride, width, height,
      formatsize, sampledLow32, sampledEntryPcrc, sampledSparsePcrc, assetCandidateCount] =>
    { policyKeyOffset := .ofNat policyKeyOffset
      sampledObjectIdOffset := .ofNat sampledObjectIdOffset
      fmt := .ofNat fmt
      siz := .ofNat siz
      texOffset := .ofNat texOffset
      stride := .ofNat stride
      width := .ofNat width
      height := .ofNat height
      formatsize := .ofNat formatsize
      sampledLow32 := .ofNat sampledLow32
      sampledEntryPcrc := .ofNat sampledEntryPcrc
      sampledSparsePcrc := .ofNat sampledSparsePcrc
      assetCandidateCount := .ofNat assetCandidateCount }
  | _ => {}

def PHRBRecord.ofFieldsV4 : List Nat → PHRBRecord
  | [policyKeyOffset, sampledObjectIdOffset, recordFlags, fmt, siz, texOffset, stride, width,
      height, formatsize, sampledLow32, sampledEntryPcrc, sampledSparsePcrc,
      assetCandidateCount] =>
    { policyKeyOffset := .ofNat policyKeyOffset
      sampledObjectIdOffset := .ofNat sampledObjectIdOffset
      recordFlags := .ofNat recordFlags
      fmt := .ofNat fmt
      siz := .ofNat siz
      texOffset := .ofNat texOffset
      stride := .ofNat stride
      width := .ofNat width
      height := .ofNat height
      formatsize := .ofNat formatsize
      sampledLow32 := .ofNat sampledLow32
      sampledEntryPcrc := .ofNat sampledEntryPcrc
      sampledSparsePcrc := .ofNat sampledSparsePcrc
      assetCandidateCount := .ofNat assetCandidateCount }
  | _ => {}

/-- What the reader keeps of an asset row; columns a version lacks keep their defaults. -/
structure PHRBAsset where
  replacementIdOffset : UInt32 := 0
  width : UInt32 := 0
  height : UInt32 := 0
  format : UInt32 := glRgba8
  textureFormat : UInt32 := glRgba.toUInt32
  pixelType : UInt32 := glUnsignedByte.toUInt32
  legacyFormatsize : UInt16 := 0
  selectorChecksum64 : UInt64 := 0
  legacyChecksum64 : UInt64 := 0
  rgbaOffset : UInt64 := 0
  rgbaSize : UInt64 := 0
  deriving DecidableEq, Repr

def assetLayoutV2 : List Nat := [4, 4, 4, 4, 4, 4, 4, 4, 4, 4, 4, 4]

def assetLayoutV3 : List Nat := [4, 4, 4, 4, 4, 4, 4, 4, 4, 4, 8, 4, 4]

def assetLayoutV5 : List Nat := [4, 4, 4, 4, 4, 4, 4, 4, 4, 4, 8, 8, 4, 4]

def assetLayoutV6 : List Nat := [4, 4, 4, 4, 4, 4, 4, 4, 4, 4, 8, 8, 8, 8]

def assetLayoutV7 : List Nat := [4, 4, 4, 4, 4, 4, 4, 4, 4, 4, 4, 8, 8, 8, 8]

def PHRBAsset.ofFieldsV2 : List Nat → PHRBAsset
  | [_, replacementIdOffset, _, _, _, width, height, textureFormat, pixelType, legacyFormatsize,
      rgbaBlobOffset, rgbaBlobSize] =>
    { replacementIdOffset := .ofNat replacementIdOffset
      width := .ofNat width
      height := .ofNat height
      textureFormat := .ofNat textureFormat
      pixelType := .ofNat pixelType
      legacyFormatsize := .ofNat legacyFormatsize
      rgbaOffset := .ofNat rgbaBlobOffset
      rgbaSize := .ofNat rgbaBlobSize }
  | _ => {}

def PHRBAsset.ofFieldsV3 : List Nat → PHRBAsset
  | [_, replacementIdOffset, _, _, _, width, height, textureFormat, pixelType, legacyFormatsize,
      selectorChecksum64, rgbaBlobOffset, rgbaBlobSize] =>
    { replacementIdOffset := .ofNat replacementIdOffset
      width := .ofNat width
      height := .ofNat height
      textureFormat := .ofNat textureFormat
      pixelType := .ofNat pixelType
      legacyFormatsize := .ofNat legacyFormatsize
      selectorChecksum64 := .ofNat selectorChecksum64
      rgbaOffset := .ofNat rgbaBlobOffset
      rgbaSize := .ofNat rgbaBlobSize }
  | _ => {}

/-- Versions 5 and 6 have the same columns and differ in the widths of the last two. -/
def PHRBAsset.ofFieldsV5 : List Nat → PHRBAsset
  | [_, replacementIdOffset, _, _, _, width, height, textureFormat, pixelType, legacyFormatsize,
      selectorChecksum64, legacyChecksum64, rgbaBlobOffset, rgbaBlobSize] =>
    { replacementIdOffset := .ofNat replacementIdOffset
      width := .ofNat width
      height := .ofNat height
      textureFormat := .ofNat textureFormat
      pixelType := .ofNat pixelType
      legacyFormatsize := .ofNat legacyFormatsize
      selectorChecksum64 := .ofNat selectorChecksum64
      legacyChecksum64 := .ofNat legacyChecksum64
      rgbaOffset := .ofNat rgbaBlobOffset
      rgbaSize := .ofNat rgbaBlobSize }
  | _ => {}

def PHRBAsset.ofFieldsV7 : List Nat → PHRBAsset
  | [_, replacementIdOffset, _, _, _, width, height, format, textureFormat, pixelType,
      legacyFormatsize, selectorChecksum64, legacyChecksum64, rgbaBlobOffset, rgbaBlobSize] =>
    { replacementIdOffset := .ofNat replacementIdOffset
      width := .ofNat width
      height := .ofNat height
      format := .ofNat format
      textureFormat := .ofNat textureFormat
      pixelType := .ofNat pixelType
      legacyFormatsize := .ofNat legacyFormatsize
      selectorChecksum64 := .ofNat selectorChecksum64
      legacyChecksum64 := .ofNat legacyChecksum64
      rgbaOffset := .ofNat rgbaBlobOffset
      rgbaSize := .ofNat rgbaBlobSize }
  | _ => {}

/-- A package whose header has been accepted: its metadata region is in memory, its blobs
stay on disk. -/
structure Pack where
  path : Bytes
  size : Nat
  header : PHRBHeader
  blob : Bytes
  deriving DecidableEq, Repr

/-- Check the header of a file and take in its metadata. The size of a file is a signed
64-bit stream position, which cannot be told from `2 ^ 63` bytes on. -/
def openPhrb (path : Bytes) (file : Bytes) : Option Pack :=
  if file.length < headerSize ∨ 2 ^ 63 ≤ file.length then none
  else
    let header := PHRBHeader.ofBytes (file.take headerSize)
    if header.magic ≠ phrbMagic ∨ (header.version ≠ 2 ∧ header.version ≠ 3 ∧ header.version ≠ 4 ∧
        header.version ≠ 5 ∧ header.version ≠ 6 ∧ header.version ≠ 7) then none
    else if header.stringTableOffset > header.blobOffset ∨
        header.blobOffset.toNat > file.length then none
    else some
      { path := path
        size := file.length
        header := header
        blob := file.take header.blobOffset.toNat }

section Rows

variable (pack : Pack)

def Pack.version3 : Bool := pack.header.version ≥ 3

def Pack.version4 : Bool := pack.header.version ≥ 4

def Pack.version5 : Bool := pack.header.version ≥ 5

def Pack.version6 : Bool := pack.header.version ≥ 6

def Pack.version7 : Bool := pack.header.version ≥ 7

def Pack.stringBlob : Bytes := pack.blob.drop pack.header.stringTableOffset.toNat

def Pack.rgbaBlobSize : Nat := pack.size - pack.header.blobOffset.toNat

/-- The record row at an index, or nothing when it is cut off by the end of the metadata. -/
def Pack.readRecord (recordIndex : Nat) : Option PHRBRecord :=
  if pack.version4 then
    (readAt pack.blob (pack.header.recordTableOffset.toNat + recordIndex * recordLayoutV4.sum)
      recordLayoutV4.sum).map fun row => PHRBRecord.ofFieldsV4 (readFields recordLayoutV4 row)
  else
    (readAt pack.blob (pack.header.recordTableOffset.toNat + recordIndex * recordLayoutV2.sum)
      recordLayoutV2.sum).map fun row => PHRBRecord.ofFieldsV2 (readFields recordLayoutV2 row)

def Pack.readAssetRow (layout : List Nat) (ofFields : List Nat → PHRBAsset) (assetIndex : UInt32) :
    Option PHRBAsset :=
  (readAt pack.blob (pack.header.assetTableOffset.toNat + assetIndex.toNat * layout.sum)
    layout.sum).map fun row => ofFields (readFields layout row)

/-- The asset row at an index, in the layout of the package's version. -/
def Pack.readAsset (assetIndex : UInt32) : Option PHRBAsset :=
  if pack.version7 then pack.readAssetRow assetLayoutV7 PHRBAsset.ofFieldsV7 assetIndex
  else if pack.version6 then pack.readAssetRow assetLayoutV6 PHRBAsset.ofFieldsV5 assetIndex
  else if pack.version5 then pack.readAssetRow assetLayoutV5 PHRBAsset.ofFieldsV5 assetIndex
  else if pack.version3 then pack.readAssetRow assetLayoutV3 PHRBAsset.ofFieldsV3 assetIndex
  else pack.readAssetRow assetLayoutV2 PHRBAsset.ofFieldsV2 assetIndex

def Pack.policyKey (record : PHRBRecord) : Bytes :=
  (readCString pack.stringBlob record.policyKeyOffset.toNat).getD
    [0x70, 0x68, 0x72, 0x62, 0x2d, 0x72, 0x65, 0x63, 0x6f, 0x72, 0x64]

def Pack.sampledObjectId (record : PHRBRecord) : Bytes :=
  (readCString pack.stringBlob record.sampledObjectIdOffset.toNat).getD []

def Pack.replacementId (asset : PHRBAsset) : Bytes :=
  (readCString pack.stringBlob asset.replacementIdOffset.toNat).getD []

theorem Pack.readRecord_of_version4 {pack : Pack} (h : pack.version4 = true) (recordIndex : Nat) :
    pack.readRecord recordIndex =
      (readAt pack.blob (pack.header.recordTableOffset.toNat + recordIndex * recordLayoutV4.sum)
        recordLayoutV4.sum).map fun row =>
          PHRBRecord.ofFieldsV4 (readFields recordLayoutV4 row) :=
  if_pos h

theorem Pack.readAsset_of_version7 {pack : Pack} (h : pack.version7 = true) (assetIndex : UInt32) :
    pack.readAsset assetIndex =
      (readAt pack.blob (pack.header.assetTableOffset.toNat + assetIndex.toNat * assetLayoutV7.sum)
        assetLayoutV7.sum).map fun row =>
          PHRBAsset.ofFieldsV7 (readFields assetLayoutV7 row) :=
  if_pos h

end Rows

theorem openPhrb_eq_some {path file : Bytes} {pack : Pack} (h : openPhrb path file = some pack) :
    pack.path = path ∧ pack.size = file.length ∧ file.length < 2 ^ 63 ∧
      pack.header.blobOffset.toNat ≤ file.length ∧
      pack.blob = file.take pack.header.blobOffset.toNat := by
  unfold openPhrb at h
  dsimp only at h
  split at h
  next => cases h
  next hsize =>
    split at h
    next => cases h
    next =>
      split at h
      next => cases h
      next hrange =>
        obtain rfl := Option.some.inj h
        exact ⟨rfl, rfl, Nat.lt_of_not_le fun hle => hsize (Or.inr hle),
          Nat.le_of_not_lt fun hlt => hrange (Or.inr hlt), rfl⟩

end ParallelN64.Phrb
