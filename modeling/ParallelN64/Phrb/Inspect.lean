import ParallelN64.Phrb.Load

/-!
# The inspector and the owners of assets

The inspector lists the records of a package and puts each asset under the record that the
asset names. The loader never reads that name: it gives each record as many of the following
assets as the record counts. Two readers of one file agree exactly when the named records are
in the order of the counts.
-/

namespace ParallelN64.Phrb

open ParallelN64.Core Replacement

def recordLayoutV1 : List Nat := [4, 4, 4, 4, 4, 4, 4, 4, 4, 4]

/-- The columns of a record row, with what the inspector takes for those a version lacks. -/
structure RecordRow where
  policyKeyOff : Nat := 0
  sampledObjectIdOff : Nat := 0
  recordFlags : Nat := phrbRecordFlagRuntimeReady.toNat
  fmt : Nat := 0
  siz : Nat := 0
  texOff : Nat := 0
  stride : Nat := 0
  width : Nat := 0
  height : Nat := 0
  formatsize : Nat := 0
  sampledLow32 : Nat := 0
  sampledEntryPcrc : Nat := 0
  sampledSparsePcrc : Nat := 0
  assetCandidateCount : Nat := 0
  deriving DecidableEq, Repr

/-- The versions have 14, 13 and 10 columns. -/
def RecordRow.ofFields : List Nat → RecordRow
  | [policyKeyOff, sampledObjectIdOff, recordFlags, fmt, siz, texOff, stride, width, height,
      formatsize, sampledLow32, sampledEntryPcrc, sampledSparsePcrc, assetCandidateCount] =>
    { policyKeyOff, sampledObjectIdOff, recordFlags, fmt, siz, texOff, stride, width, height
      formatsize, sampledLow32, sampledEntryPcrc, sampledSparsePcrc, assetCandidateCount }
  | [policyKeyOff, sampledObjectIdOff, fmt, siz, texOff, stride, width, height, formatsize,
      sampledLow32, sampledEntryPcrc, sampledSparsePcrc, assetCandidateCount] =>
    { policyKeyOff, sampledObjectIdOff, fmt, siz, texOff, stride, width, height
      formatsize, sampledLow32, sampledEntryPcrc, sampledSparsePcrc, assetCandidateCount }
  | [policyKeyOff, sampledObjectIdOff, fmt, siz, texOff, stride, width, height, formatsize,
      assetCandidateCount] =>
    { policyKeyOff, sampledObjectIdOff, fmt, siz, texOff, stride, width, height
      formatsize, assetCandidateCount }
  | _ => {}

/-- The columns of an asset row. -/
structure AssetRow where
  recordIndex : Nat := 0
  replacementIdOff : Nat := 0
  legacySourcePathOff : Nat := 0
  rgbaRelPathOff : Nat := 0
  variantGroupIdOff : Nat := 0
  width : Nat := 0
  height : Nat := 0
  formatValue : Nat := glRgba8.toNat
  textureFormat : Nat := 0
  pixelType : Nat := 0
  legacyFormatsize : Nat := 0
  selectorChecksum64 : Nat := 0
  legacyChecksum64 : Nat := 0
  rgbaBlobOff : Nat := 0
  rgbaBlobSize : Nat := 0
  deriving DecidableEq, Repr

/-- The versions have 15, 14, 13 and 12 columns. -/
def AssetRow.ofFields : List Nat → AssetRow
  | [recordIndex, replacementIdOff, legacySourcePathOff, rgbaRelPathOff, variantGroupIdOff, width,
      height, formatValue, textureFormat, pixelType, legacyFormatsize, selectorChecksum64,
      legacyChecksum64, rgbaBlobOff, rgbaBlobSize] =>
    { recordIndex, replacementIdOff, legacySourcePathOff, rgbaRelPathOff, variantGroupIdOff, width
      height, formatValue, textureFormat, pixelType, legacyFormatsize, selectorChecksum64
      legacyChecksum64, rgbaBlobOff, rgbaBlobSize }
  | [recordIndex, replacementIdOff, legacySourcePathOff, rgbaRelPathOff, variantGroupIdOff, width,
      height, textureFormat, pixelType, legacyFormatsize, selectorChecksum64, legacyChecksum64,
      rgbaBlobOff, rgbaBlobSize] =>
    { recordIndex, replacementIdOff, legacySourcePathOff, rgbaRelPathOff, variantGroupIdOff, width
      height, textureFormat, pixelType, legacyFormatsize, selectorChecksum64, legacyChecksum64
      rgbaBlobOff, rgbaBlobSize }
  | [recordIndex, replacementIdOff, legacySourcePathOff, rgbaRelPathOff, variantGroupIdOff, width,
      height, textureFormat, pixelType, legacyFormatsize, selectorChecksum64, rgbaBlobOff,
      rgbaBlobSize] =>
    { recordIndex, replacementIdOff, legacySourcePathOff, rgbaRelPathOff, variantGroupIdOff, width
      height, textureFormat, pixelType, legacyFormatsize, selectorChecksum64, rgbaBlobOff
      rgbaBlobSize }
  | [recordIndex, replacementIdOff, legacySourcePathOff, rgbaRelPathOff, variantGroupIdOff, width,
      height, textureFormat, pixelType, legacyFormatsize, rgbaBlobOff, rgbaBlobSize] =>
    { recordIndex, replacementIdOff, legacySourcePathOff, rgbaRelPathOff, variantGroupIdOff, width
      height, textureFormat, pixelType, legacyFormatsize, rgbaBlobOff, rgbaBlobSize }
  | _ => {}

/-- What the inspector shows of an asset, and the row that it read it from. -/
structure InspectedAsset where
  assetIndex : Nat
  row : AssetRow
  replacementId : String
  legacySourcePath : String
  rgbaRelPath : String
  variantGroupId : String
  deriving DecidableEq, Repr

/-- What the inspector shows of a record. -/
structure InspectedRecord where
  recordIndex : Nat
  row : RecordRow
  policyKey : String
  sampledObjectId : String
  runtimeReady : Bool
  assetCandidates : List InspectedAsset
  deriving DecidableEq, Repr

structure Inspection where
  version : Nat
  recordCount : Nat
  assetCount : Nat
  stringTableBytes : Nat
  blobBytes : Int
  records : List InspectedRecord
  deriving DecidableEq, Repr

section Inspector

variable (data : Bytes) (header : PHRBHeader)

def inspectCString (stringBlob : Bytes) (offset : Nat) : Option String :=
  (readCString stringBlob offset).bind fun bytes => String.fromUTF8? ⟨bytes.toArray⟩

def inspectedRecordLayout : List Nat :=
  if header.version ≥ 4 then recordLayoutV4
  else if header.version ≥ 2 then recordLayoutV2
  else recordLayoutV1

def inspectedAssetLayout : List Nat :=
  if header.version ≥ 7 then assetLayoutV7
  else if header.version ≥ 6 then assetLayoutV6
  else if header.version ≥ 5 then assetLayoutV5
  else if header.version ≥ 3 then assetLayoutV3
  else assetLayoutV2

def inspectedStrings : Bytes :=
  (data.take header.blobOffset.toNat).drop header.stringTableOffset.toNat

def recordRow (i : Nat) : Option RecordRow :=
  (readAt data (header.recordTableOffset.toNat + i * (inspectedRecordLayout header).sum)
    (inspectedRecordLayout header).sum).map fun row =>
      RecordRow.ofFields (readFields (inspectedRecordLayout header) row)

def assetRow (i : Nat) : Option AssetRow :=
  (readAt data (header.assetTableOffset.toNat + i * (inspectedAssetLayout header).sum)
    (inspectedAssetLayout header).sum).map fun row =>
      AssetRow.ofFields (readFields (inspectedAssetLayout header) row)

def inspectRecord (i : Nat) : Option InspectedRecord := do
  let row ← recordRow data header i
  let policyKey ← inspectCString (inspectedStrings data header) row.policyKeyOff
  let sampledObjectId ← inspectCString (inspectedStrings data header) row.sampledObjectIdOff
  return {
    recordIndex := i
    row, policyKey, sampledObjectId
    runtimeReady := row.recordFlags &&& phrbRecordFlagRuntimeReady.toNat != 0
    assetCandidates := [] }

def inspectAsset (i : Nat) (row : AssetRow) : Option InspectedAsset := do
  let strings := inspectedStrings data header
  let replacementId ← inspectCString strings row.replacementIdOff
  let legacySourcePath ← inspectCString strings row.legacySourcePathOff
  let rgbaRelPath ← inspectCString strings row.rgbaRelPathOff
  let variantGroupId ← inspectCString strings row.variantGroupIdOff
  return { assetIndex := i, row, replacementId, legacySourcePath, rgbaRelPath, variantGroupId }

/-- Put an asset behind the others of the record that it names. -/
def groupAsset (records : List InspectedRecord) (i : Nat) : Option (List InspectedRecord) := do
  let row ← assetRow data header i
  if row.recordIndex < records.length then
    let asset ← inspectAsset data header i row
    return records.modify row.recordIndex fun record =>
      { record with assetCandidates := record.assetCandidates ++ [asset] }
  else none

end Inspector

/-- List the records of a package with their assets, unless a row or a string cannot be read or
an asset names no record. -/
def inspectBinaryPackage (data : Bytes) : Option Inspection :=
  if data.length < headerSize then none
  else
    let header := PHRBHeader.ofBytes (data.take headerSize)
    if header.magic ≠ phrbMagic ∨ header.version < 1 ∨ 7 < header.version then none
    else do
      let records ← (List.range header.recordCount.toNat).mapM (inspectRecord data header)
      let records ← (List.range header.assetCount.toNat).foldlM (groupAsset data header) records
      return {
        version := header.version.toNat
        recordCount := header.recordCount.toNat
        assetCount := header.assetCount.toNat
        stringTableBytes := (inspectedStrings data header).length
        blobBytes := data.length - header.blobOffset.toNat
        records }

def Inspection.Lists (inspection : Inspection) (recordIndex assetIndex : Nat) : Prop :=
  ∃ record ∈ inspection.records, record.recordIndex = recordIndex ∧
    ∃ asset ∈ record.assetCandidates, asset.assetIndex = assetIndex

end ParallelN64.Phrb
