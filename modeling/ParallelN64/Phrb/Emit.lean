import ParallelN64.Core.StringTable
import ParallelN64.Phrb.Format

/-!
# Writing a package from its manifest

The emitter packs one row for each record and each asset candidate, interns all strings
in one table, and appends the blobs of the candidates whose record is runtime-ready.
Manifest values are scalars that are converted to integers where they are packed; any
failing conversion, out-of-range field or missing blob aborts the emission.
-/

namespace ParallelN64.Phrb

open ParallelN64.Core

abbrev Text := List Char

def encodeUtf8 (s : Text) : Bytes := s.flatMap String.utf8EncodeChar

/-- A scalar value of a manifest; `none` also stands for an absent optional key. -/
inductive Scalar where
  | none
  | bool (b : Bool)
  | int (n : Int)
  | str (s : Text)
  deriving DecidableEq, Repr

def Scalar.truthy : Scalar → Bool
  | .none => false
  | .bool b => b
  | .int n => n ≠ 0
  | .str s => !s.isEmpty

def Scalar.orElse (v d : Scalar) : Scalar := if v.truthy then v else d

/-- The text of a value, as printing shows it. -/
def Scalar.toText : Scalar → Text
  | .none => ['N', 'o', 'n', 'e']
  | .bool true => ['T', 'r', 'u', 'e']
  | .bool false => ['F', 'a', 'l', 's', 'e']
  | .int n => (toString n).toList
  | .str s => s

/-- The integer a value packs as; only integers and booleans can be packed. -/
def Scalar.index : Scalar → Option Int
  | .none => Option.none
  | .bool b => some b.toNat
  | .int n => some n
  | .str _ => Option.none

/-- The canonical identity of a record. -/
structure CanonicalIdentity where
  fmt : Scalar
  siz : Scalar
  off : Scalar
  stride : Scalar
  wh : Text
  formatsize : Scalar
  sampledLow32 : Scalar := .none
  sampledEntryPcrc : Scalar := .none
  sampledSparsePcrc : Scalar := .none
  deriving DecidableEq, Repr

structure AssetCandidate where
  replacementId : Text
  legacySourcePath : Text
  materializedPath : Text
  variantGroupId : Text
  legacyChecksum64 : Text
  legacyTextureCrc : Text
  legacyPaletteCrc : Text
  width : Scalar
  height : Scalar
  legacyFormatsize : Scalar
  dataSize : Scalar := .none
  format : Scalar := .none
  textureFormat : Scalar := .none
  pixelType : Scalar := .none
  selectorChecksum64 : Scalar := .none
  deriving DecidableEq, Repr

structure ManifestRecord where
  policyKey : Text
  sampledObjectId : Text
  canonicalIdentity : CanonicalIdentity
  assetCandidateCount : Scalar
  assetCandidates : List AssetCandidate := []
  recordFlags : Scalar := .int 0
  runtimeReady : Scalar := .bool true
  deriving DecidableEq, Repr

/-- How blobs are stored: as they are in the source pack, or as decoded pixels. -/
inductive AssetStorageMode where
  | legacy
  | rgba
  deriving DecidableEq, Repr

section Emit

-- Conversion of a text to an integer in a base; the results hold for any conversion.
variable (parseInt : Nat → Text → Option Int)

/-- Conversion of a value to an integer. -/
def Scalar.toInt : Scalar → Option Int
  | .none => Option.none
  | .bool b => some b.toNat
  | .int n => some n
  | .str s => parseInt 10 s

/-- A 32-bit identity: absent or empty is zero, integers are kept, texts are hexadecimal. -/
def parseU32Identity : Scalar → Option Int
  | .none => some 0
  | .bool b => some b.toNat
  | .int n => some n
  | .str s => if s = [] then some 0 else parseInt 16 s

/-- The two parts of a text around its first `x`. -/
def splitX (s : Text) : Option (Text × Text) :=
  if 'x' ∈ s then some (s.takeWhile (· ≠ 'x'), (s.dropWhile (· ≠ 'x')).tail) else none

def orRuntimeReady (recordFlags : Int) : Int :=
  if recordFlags % 2 = 0 then recordFlags + 1 else recordFlags

/-- The packed integers of a record row. -/
def recordFields (stringOffsets : Table Text Nat) (record : ManifestRecord) :
    Option (List Int) := do
  let policyKeyOff ← stringOffsets.lookup record.policyKey
  let sampledObjectIdOff ← stringOffsets.lookup record.sampledObjectId
  let identity := record.canonicalIdentity
  let (widthStr, heightStr) ← splitX identity.wh
  let recordFlags ← (record.recordFlags.orElse (.int 0)).toInt parseInt
  let recordFlags := if record.runtimeReady.truthy then orRuntimeReady recordFlags else recordFlags
  let fmt ← identity.fmt.toInt parseInt
  let siz ← identity.siz.toInt parseInt
  let off ← identity.off.toInt parseInt
  let stride ← identity.stride.toInt parseInt
  let width ← parseInt 10 widthStr
  let height ← parseInt 10 heightStr
  let formatsize ← identity.formatsize.toInt parseInt
  let sampledLow32 ← parseU32Identity parseInt identity.sampledLow32
  let sampledEntryPcrc ← parseU32Identity parseInt identity.sampledEntryPcrc
  let sampledSparsePcrc ← parseU32Identity parseInt identity.sampledSparsePcrc
  let assetCandidateCount ← record.assetCandidateCount.index
  return [policyKeyOff, sampledObjectIdOff, recordFlags, fmt, siz, off, stride, width, height,
    formatsize, sampledLow32, sampledEntryPcrc, sampledSparsePcrc, assetCandidateCount]

/-- What is stored for a candidate: the size of its blob and the formats of its pixels. -/
structure Storage where
  blobSize : Int
  format : Int
  textureFormat : Int
  pixelType : Int
  deriving DecidableEq, Repr

/-- The size of a decoded blob: that of the given blob, or four bytes for each pixel. -/
def rgbaBlobSize (assetRgbaBlobs : Text → Option Bytes) (candidate : AssetCandidate) :
    Option Int :=
  match assetRgbaBlobs candidate.materializedPath with
  | some rgbaBytes => some rgbaBytes.length
  | none => do
    let width ← candidate.width.toInt parseInt
    let height ← candidate.height.toInt parseInt
    return width * height * 4

/-- The formats a candidate declares, with their defaults. -/
def declaredStorage (candidate : AssetCandidate) (blobSize : Int) : Option Storage := do
  let format ← (candidate.format.orElse (.int glRgba8.toNat)).toInt parseInt
  let textureFormat ← (candidate.textureFormat.orElse (.int glRgba.toNat)).toInt parseInt
  let pixelType ← (candidate.pixelType.orElse (.int glUnsignedByte.toNat)).toInt parseInt
  return { blobSize, format, textureFormat, pixelType }

/-- The declared storage of a candidate. Candidates of records that are not runtime-ready
have no blob. -/
def storage (mode : AssetStorageMode) (assetRgbaBlobs : Text → Option Bytes)
    (record : ManifestRecord) (candidate : AssetCandidate) : Option Storage :=
  if record.runtimeReady.truthy then
    match mode with
    | .legacy => do
      let blobSize ← (candidate.dataSize.orElse (.int 0)).toInt parseInt
      declaredStorage parseInt candidate blobSize
    | .rgba => do
      let blobSize ← rgbaBlobSize parseInt assetRgbaBlobs candidate
      return { blobSize
               format := glRgba8.toNat
               textureFormat := glRgba.toNat
               pixelType := glUnsignedByte.toNat }
  else declaredStorage parseInt candidate 0

/-- An asset with its record, and once packed its storage and the offset of its blob. -/
structure AssetRecord where
  recordIndex : Nat
  record : ManifestRecord
  candidate : AssetCandidate

structure StoredAsset extends AssetRecord where
  storage : Storage
  blobOffset : Int

/-- The packed integers of an asset row. -/
def assetFields (stringOffsets : Table Text Nat) (asset : StoredAsset) : Option (List Int) := do
  let candidate := asset.candidate
  let selectorChecksum64 ←
    parseInt 16 (candidate.selectorChecksum64.orElse (.str ['0'])).toText
  let legacyChecksum64 ←
    parseInt 16 ((Scalar.str candidate.legacyChecksum64).orElse (.str ['0'])).toText
  let replacementIdOff ← stringOffsets.lookup candidate.replacementId
  let legacySourcePathOff ← stringOffsets.lookup candidate.legacySourcePath
  let rgbaRelPathOff ← stringOffsets.lookup candidate.materializedPath
  let variantGroupIdOff ← stringOffsets.lookup candidate.variantGroupId
  let width ← candidate.width.toInt parseInt
  let height ← candidate.height.toInt parseInt
  let legacyFormatsize ← candidate.legacyFormatsize.toInt parseInt
  return [asset.recordIndex, replacementIdOff, legacySourcePathOff, rgbaRelPathOff,
    variantGroupIdOff, width, height, asset.storage.format, asset.storage.textureFormat,
    asset.storage.pixelType, legacyFormatsize, selectorChecksum64, legacyChecksum64,
    asset.blobOffset, asset.storage.blobSize]

/-- Lay out the blobs of assets one after the other from a running size on. -/
def storeAssets (mode : AssetStorageMode) (assetRgbaBlobs : Text → Option Bytes) :
    Int → List AssetRecord → Option (List StoredAsset × Int)
  | blobSectionSize, [] => some ([], blobSectionSize)
  | blobSectionSize, asset :: assets => do
    let storage ← storage parseInt mode assetRgbaBlobs asset.record asset.candidate
    let (rest, total) ←
      storeAssets mode assetRgbaBlobs (blobSectionSize + storage.blobSize) assets
    return ({ asset with storage, blobOffset := blobSectionSize } :: rest, total)

def candidateStrings (candidate : AssetCandidate) : List Text :=
  [candidate.replacementId, candidate.legacySourcePath, candidate.materializedPath,
    candidate.variantGroupId, candidate.legacyChecksum64, candidate.legacyTextureCrc,
    candidate.legacyPaletteCrc]

def recordStrings (record : ManifestRecord) : List Text :=
  record.policyKey :: record.sampledObjectId :: record.assetCandidates.flatMap candidateStrings

/-- The assets of all records in order, numbered by record from a starting index on. -/
def assetRecords : Nat → List ManifestRecord → List AssetRecord
  | _, [] => []
  | recordIndex, record :: records =>
    record.assetCandidates.map (fun candidate => { recordIndex, record, candidate }) ++
      assetRecords (recordIndex + 1) records

/-- The tables of a package, with the offsets at which the file places them. -/
structure PackageTables where
  records : List ManifestRecord
  assetRecords : List StoredAsset
  stringBlob : Bytes
  recordTable : List Bytes
  assetTable : List Bytes
  recordTableOffset : Nat
  assetTableOffset : Nat
  stringTableOffset : Nat
  blobOffset : Nat
  blobBytes : Int

def buildPackageTables (mode : AssetStorageMode) (assetRgbaBlobs : Text → Option Bytes)
    (records : List ManifestRecord) : Option PackageTables := do
  let (stringBlob, stringOffsets) :=
    StringTable.build encodeUtf8 (records.flatMap recordStrings)
  let recordTable ← records.mapM fun record => do
    packFields recordLayoutV4 (← recordFields parseInt stringOffsets record)
  let (stored, blobSectionSize) ←
    storeAssets parseInt mode assetRgbaBlobs 0 (assetRecords 0 records)
  let assetTable ← stored.mapM fun asset => do
    packFields assetLayoutV7 (← assetFields parseInt stringOffsets asset)
  let recordTableOffset := headerSize
  let assetTableOffset := recordTableOffset + recordTable.flatten.length
  let stringTableOffset := assetTableOffset + assetTable.flatten.length
  let blobOffset := stringTableOffset + stringBlob.length
  return { records, assetRecords := stored, stringBlob, recordTable, assetTable, recordTableOffset,
           assetTableOffset, stringTableOffset, blobOffset, blobBytes := blobSectionSize }

abbrev AssetBlobLoader := Nat → ManifestRecord → AssetCandidate → Option Bytes

/-- The blob supplied for a candidate: a given one, or else what the loader returns. -/
def suppliedBlob (assetRgbaBlobs : Text → Option Bytes) (assetBlobLoader : Option AssetBlobLoader)
    (recordIndex : Nat) (record : ManifestRecord) (candidate : AssetCandidate) : Option Bytes :=
  match assetRgbaBlobs candidate.materializedPath with
  | some blobBytesValue => some blobBytesValue
  | none => do
    let load ← assetBlobLoader
    load recordIndex record candidate

/-- The bytes written for the blob of an asset: nothing for a record that is not
runtime-ready, and otherwise a supplied blob of the declared size. -/
def blobChunk (assetRgbaBlobs : Text → Option Bytes) (assetBlobLoader : Option AssetBlobLoader)
    (asset : StoredAsset) : Option Bytes :=
  if !asset.record.runtimeReady.truthy then some []
  else do
    let blobBytesValue ← suppliedBlob assetRgbaBlobs assetBlobLoader asset.recordIndex asset.record
      asset.candidate
    if (blobBytesValue.length : Int) ≠ asset.storage.blobSize then none else some blobBytesValue

/-- The emitted file and the counts that are reported with it. -/
structure EmittedPackage where
  file : Bytes
  recordCount : Nat
  assetCount : Nat
  stringTableBytes : Nat
  blobBytes : Int
  deriving DecidableEq, Repr

def emitBinaryPackageFromManifest (mode : AssetStorageMode)
    (assetRgbaBlobs : Text → Option Bytes) (assetBlobLoader : Option AssetBlobLoader)
    (records : List ManifestRecord) : Option EmittedPackage := do
  let tables ← buildPackageTables parseInt mode assetRgbaBlobs records
  let header ← packFields headerLayout [7, tables.records.length, tables.assetRecords.length,
    tables.recordTableOffset, tables.assetTableOffset, tables.stringTableOffset,
    tables.blobOffset]
  let chunks ← tables.assetRecords.mapM (blobChunk assetRgbaBlobs assetBlobLoader)
  return {
    file := phrbMagic ++ header ++ tables.recordTable.flatten ++ tables.assetTable.flatten ++
      tables.stringBlob ++ chunks.flatten
    recordCount := tables.records.length
    assetCount := tables.assetRecords.length
    stringTableBytes := tables.stringBlob.length
    blobBytes := tables.blobBytes }

end Emit

end ParallelN64.Phrb
