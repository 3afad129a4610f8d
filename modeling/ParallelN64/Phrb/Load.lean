import ParallelN64.Phrb.Format
import ParallelN64.Replacement.Provider

/-!
# Loading a package into a provider

Loading walks the record table, and for each runtime-ready record the assets that
follow the running asset base, committing entries one at a time. The walk over the
tables depends on the file alone; loading adds the entries of the visited assets in
order, up to the first row that is cut off.
-/

namespace ParallelN64.Phrb

open ParallelN64.Core Replacement

section Load

variable (pack : Pack)

def PHRBRecord.familyRuntimeRecord (record : PHRBRecord) : Bool :=
  record.fmt == 0 && record.siz == 0 && record.texOffset == 0 && record.stride == 0 &&
    record.width == 0 && record.height == 0

def PHRBRecord.runtimeReady (record : PHRBRecord) : Bool :=
  record.recordFlags &&& phrbRecordFlagRuntimeReady != 0

/-- The native entry of an asset under a palette crc. -/
def Pack.sampledEntry (record : PHRBRecord) (asset : PHRBAsset) (paletteCrc : UInt32) : Entry where
  sourcePath := pack.path
  phrbPolicyKey := pack.policyKey record
  phrbReplacementId := pack.replacementId asset
  phrbSampledObjectId := pack.sampledObjectId record
  checksum64 := paletteCrc.toUInt64 <<< 32 ||| record.sampledLow32.toUInt64
  dataOffset := pack.header.blobOffset.toUInt64 + asset.rgbaOffset
  dataSize := asset.rgbaSize.toUInt32
  width := asset.width
  height := asset.height
  format := asset.format
  textureFormat := asset.textureFormat.toUInt16
  pixelType := asset.pixelType.toUInt16
  formatsize := record.formatsize.toUInt16
  selectorChecksum64 := asset.selectorChecksum64
  sampledFmt := record.fmt
  sampledSiz := record.siz
  sampledTexOffset := record.texOffset
  sampledStride := record.stride
  sampledWidth := record.width
  sampledHeight := record.height
  sampledLow32 := record.sampledLow32
  sampledPaletteCrc := paletteCrc
  sampledEntryPcrc := record.sampledEntryPcrc
  sampledSparsePcrc := record.sampledSparsePcrc
  hasNativeSampledIdentity := true
  isHires := true
  inlineBlob := false

/-- The compat entry of an asset of a runtime family. -/
def Pack.familyEntry (record : PHRBRecord) (asset : PHRBAsset) : Entry where
  sourcePath := pack.path
  phrbPolicyKey := pack.policyKey record
  phrbReplacementId := pack.replacementId asset
  phrbSampledObjectId := pack.sampledObjectId record
  checksum64 := asset.legacyChecksum64
  dataOffset := pack.header.blobOffset.toUInt64 + asset.rgbaOffset
  dataSize := asset.rgbaSize.toUInt32
  width := asset.width
  height := asset.height
  format := asset.format
  textureFormat := asset.textureFormat.toUInt16
  pixelType := asset.pixelType.toUInt16
  formatsize := if asset.legacyFormatsize != 0 then asset.legacyFormatsize
    else record.formatsize.toUInt16
  selectorChecksum64 := asset.selectorChecksum64
  sampledLow32 := record.sampledLow32
  sampledPaletteCrc := (asset.legacyChecksum64 >>> 32).toUInt32
  sampledEntryPcrc := record.sampledEntryPcrc
  sampledSparsePcrc := record.sampledSparsePcrc
  hasNativeSampledIdentity := false
  isRuntimeFamilyCompat := true
  isHires := true
  inlineBlob := false

/-- What loading has done so far. -/
structure LoadState where
  provider : Provider
  loadedCount : UInt32 := 0
  assetBase : UInt32 := 0

def LoadState.addEntry (s : LoadState) (entry : Entry) : LoadState :=
  { s with provider := s.provider.addEntry entry, loadedCount := s.loadedCount + 1 }

def Pack.addSampledEntry (record : PHRBRecord) (asset : PHRBAsset) (s : LoadState)
    (paletteCrc : UInt32) : LoadState :=
  s.addEntry (pack.sampledEntry record asset paletteCrc)

def Pack.addFamilyEntry (record : PHRBRecord) (asset : PHRBAsset) (s : LoadState) : LoadState :=
  if asset.legacyChecksum64 == 0 then s else s.addEntry (pack.familyEntry record asset)

/-- Whether an asset's blob range, dimensions and, before version 7, size are accepted. -/
def Pack.acceptsAsset (asset : PHRBAsset) : Bool :=
  if asset.rgbaOffset.toNat > pack.rgbaBlobSize ||
      asset.rgbaSize.toNat > pack.rgbaBlobSize - asset.rgbaOffset.toNat then false
  else if asset.width == 0 || asset.height == 0 || asset.rgbaSize == 0 ||
      asset.rgbaSize > 0xffffffff then false
  else if !pack.version7 then
    asset.rgbaSize == asset.width.toUInt64 * asset.height.toUInt64 * 4
  else true

/-- Commit the entries of one asset row. -/
def Pack.loadAsset (record : PHRBRecord) (asset : PHRBAsset) (s : LoadState) : LoadState :=
  if !pack.acceptsAsset asset then s
  else if record.familyRuntimeRecord then pack.addFamilyEntry record asset s
  else
    let (s, added) := if record.sampledSparsePcrc != 0 then
        (pack.addSampledEntry record asset s record.sampledSparsePcrc, true)
      else (s, false)
    let (s, added) := if record.sampledEntryPcrc != 0 &&
          record.sampledEntryPcrc != record.sampledSparsePcrc then
        (pack.addSampledEntry record asset s record.sampledEntryPcrc, true)
      else (s, added)
    if !added then pack.addSampledEntry record asset s 0 else s

/-- Load the remaining candidates of a record from candidate `ai` on; false when an asset
row is cut off. -/
def Pack.loadAssets (pack : Pack) (record : PHRBRecord) : Nat → UInt32 → LoadState → Bool × LoadState
  | 0, _, s => (true, s)
  | remaining + 1, ai, s =>
    if s.assetBase + ai < pack.header.assetCount then
      match pack.readAsset (s.assetBase + ai) with
      | none => (false, s)
      | some asset => pack.loadAssets record remaining (ai + 1) (pack.loadAsset record asset s)
    else (true, s)

/-- Load the remaining records from a record index on; false when a row is cut off. -/
def Pack.loadRecords (pack : Pack) : Nat → Nat → LoadState → Bool × LoadState
  | 0, _, s => (true, s)
  | remaining + 1, recordIndex, s =>
    match pack.readRecord recordIndex with
    | none => (false, s)
    | some record =>
      if !record.runtimeReady then
        pack.loadRecords remaining (recordIndex + 1)
          { s with assetBase := s.assetBase + record.assetCandidateCount }
      else
        match pack.loadAssets record record.assetCandidateCount.toNat 0 s with
        | (false, s) => (false, s)
        | (true, s) =>
          pack.loadRecords remaining (recordIndex + 1)
            { s with assetBase := s.assetBase + record.assetCandidateCount }

end Load

/-- Load the bytes of a package file; the result says whether anything was loaded. -/
def loadPhrb (p : Provider) (path file : Bytes) : Bool × Provider :=
  match openPhrb path file with
  | none => (false, p)
  | some pack =>
    match pack.loadRecords pack.header.recordCount.toNat 0 { provider := p } with
    | (false, s) => (false, s.provider)
    | (true, s) => (s.loadedCount != 0, s.provider)

section Walk

variable (pack : Pack)

/-- The palette crcs under which an asset of a sampled record is added: the distinct nonzero
ones, or zero when there is none. -/
def paletteCrcs (sampledSparsePcrc sampledEntryPcrc : UInt32) : List UInt32 :=
  if sampledSparsePcrc = 0 ∧ sampledEntryPcrc = 0 then [0]
  else [sampledSparsePcrc, sampledEntryPcrc].dedup.filter (· ≠ 0)

/-- The entries an asset row contributes. -/
def Pack.assetEntries (record : PHRBRecord) (asset : PHRBAsset) : List Entry :=
  if !pack.acceptsAsset asset then []
  else if record.familyRuntimeRecord then
    if asset.legacyChecksum64 = 0 then [] else [pack.familyEntry record asset]
  else (paletteCrcs record.sampledSparsePcrc record.sampledEntryPcrc).map
    (pack.sampledEntry record asset)

/-- The asset rows visited for a record, and whether none was cut off. -/
def Pack.walkAssets (pack : Pack) (assetBase : UInt32) : Nat → UInt32 → Bool × List PHRBAsset
  | 0, _ => (true, [])
  | remaining + 1, ai =>
    if assetBase + ai < pack.header.assetCount then
      match pack.readAsset (assetBase + ai) with
      | none => (false, [])
      | some asset =>
        let (complete, assets) := pack.walkAssets assetBase remaining (ai + 1)
        (complete, asset :: assets)
    else (true, [])

/-- The asset rows visited with their records, and whether no row was cut off. -/
def Pack.walkRecords (pack : Pack) : Nat → Nat → UInt32 → Bool × List (PHRBRecord × PHRBAsset)
  | 0, _, _ => (true, [])
  | remaining + 1, recordIndex, assetBase =>
    match pack.readRecord recordIndex with
    | none => (false, [])
    | some record =>
      if !record.runtimeReady then
        pack.walkRecords remaining (recordIndex + 1) (assetBase + record.assetCandidateCount)
      else
        match pack.walkAssets assetBase record.assetCandidateCount.toNat 0 with
        | (false, assets) => (false, assets.map (record, ·))
        | (true, assets) =>
          let (complete, visits) := pack.walkRecords remaining (recordIndex + 1)
            (assetBase + record.assetCandidateCount)
          (complete, assets.map (record, ·) ++ visits)

def Pack.visits : List (PHRBRecord × PHRBAsset) :=
  (pack.walkRecords pack.header.recordCount.toNat 0 0).2

def Pack.complete : Bool := (pack.walkRecords pack.header.recordCount.toNat 0 0).1

def Pack.visitEntries (visits : List (PHRBRecord × PHRBAsset)) : List Entry :=
  visits.flatMap fun v => pack.assetEntries v.1 v.2

def Pack.entries : List Entry := pack.visitEntries pack.visits

def LoadState.addEntries (s : LoadState) (es : List Entry) : LoadState :=
  { s with provider := s.provider.addEntries es,
           loadedCount := s.loadedCount + UInt32.ofNat es.length }

theorem LoadState.addEntries_nil (s : LoadState) : s.addEntries [] = s := by
  simp [LoadState.addEntries]

theorem LoadState.addEntries_singleton (s : LoadState) (e : Entry) :
    s.addEntries [e] = s.addEntry e := rfl

theorem LoadState.addEntries_append (s : LoadState) (es fs : List Entry) :
    s.addEntries (es ++ fs) = (s.addEntries es).addEntries fs := by
  simp only [LoadState.addEntries, Provider.addEntries_append, List.length_append,
    UInt32.ofNat_add, UInt32.add_assoc]

theorem paletteCrcs_eq (sparse entry : UInt32) :
    paletteCrcs sparse entry =
      if sparse ≠ 0 then
        if entry ≠ 0 ∧ entry ≠ sparse then [sparse, entry] else [sparse]
      else if entry ≠ 0 then [entry]
      else [0] := by
  unfold paletteCrcs
  by_cases hs : sparse = 0
  · by_cases he : entry = 0
    · simp [hs, he]
    · simp [hs, he, Ne.symm he]
  · by_cases he : entry = 0
    · simp [hs, he]
    · by_cases hse : entry = sparse
      · simp [hs, hse]
      · simp [hs, he, hse, Ne.symm hse]

theorem paletteCrcs_ne_nil (sparse entry : UInt32) : paletteCrcs sparse entry ≠ [] := by
  rw [paletteCrcs_eq]
  split_ifs <;> simp

theorem Pack.loadAsset_eq (record : PHRBRecord) (asset : PHRBAsset) (s : LoadState) :
    pack.loadAsset record asset s = s.addEntries (pack.assetEntries record asset) := by
  unfold Pack.loadAsset Pack.assetEntries
  by_cases ha : pack.acceptsAsset asset = true
  · by_cases hf : record.familyRuntimeRecord = true
    · by_cases hz : asset.legacyChecksum64 = 0 <;>
        simp [ha, hf, hz, Pack.addFamilyEntry, LoadState.addEntries_nil,
          LoadState.addEntries_singleton]
    · rw [paletteCrcs_eq]
      by_cases hs : record.sampledSparsePcrc = 0
      · by_cases he : record.sampledEntryPcrc = 0 <;>
          simp [ha, hf, hs, he, Pack.addSampledEntry, LoadState.addEntries_singleton]
      · by_cases he : record.sampledEntryPcrc = 0
        · simp [ha, hf, hs, he, Pack.addSampledEntry, LoadState.addEntries_singleton]
        · by_cases hse : record.sampledEntryPcrc = record.sampledSparsePcrc
          · simp [ha, hf, hs, hse, Pack.addSampledEntry, LoadState.addEntries_singleton]
          · simp [ha, hf, hs, he, hse, Pack.addSampledEntry,
              ← LoadState.addEntries_singleton, ← LoadState.addEntries_append]
  · simp [ha, LoadState.addEntries_nil]

theorem Pack.loadAssets_eq (record : PHRBRecord) (remaining : Nat) (ai : UInt32) (s : LoadState) :
    pack.loadAssets record remaining ai s =
      ((pack.walkAssets s.assetBase remaining ai).1,
        s.addEntries ((pack.walkAssets s.assetBase remaining ai).2.flatMap
          (pack.assetEntries record))) := by
  induction remaining generalizing ai s with
  | zero => rw [Pack.loadAssets, Pack.walkAssets, List.flatMap_nil, s.addEntries_nil]
  | succ remaining ih =>
    rw [Pack.loadAssets, Pack.walkAssets]
    by_cases hlt : s.assetBase + ai < pack.header.assetCount
    · rw [if_pos hlt, if_pos hlt]
      cases pack.readAsset (s.assetBase + ai) with
      | none => simp only [List.flatMap_nil, s.addEntries_nil]
      | some asset =>
        simp only [pack.loadAsset_eq, ih, List.flatMap_cons, LoadState.addEntries_append]
        rfl
    · rw [if_neg hlt, if_neg hlt, List.flatMap_nil, s.addEntries_nil]

theorem Pack.visitEntries_map (record : PHRBRecord) (assets : List PHRBAsset) :
    pack.visitEntries (assets.map (record, ·)) = assets.flatMap (pack.assetEntries record) := by
  rw [Pack.visitEntries, List.flatMap_map]

theorem Pack.visitEntries_append (vs ws : List (PHRBRecord × PHRBAsset)) :
    pack.visitEntries (vs ++ ws) = pack.visitEntries vs ++ pack.visitEntries ws :=
  List.flatMap_append

theorem Pack.loadRecords_eq (remaining recordIndex : Nat) (s : LoadState) :
    ∃ assetBase, pack.loadRecords remaining recordIndex s =
      ((pack.walkRecords remaining recordIndex s.assetBase).1,
        { s.addEntries (pack.visitEntries
            (pack.walkRecords remaining recordIndex s.assetBase).2) with
          assetBase := assetBase }) := by
  induction remaining generalizing recordIndex s with
  | zero =>
    refine ⟨s.assetBase, ?_⟩
    rw [Pack.loadRecords, Pack.walkRecords, Pack.visitEntries, List.flatMap_nil, s.addEntries_nil]
  | succ remaining ih =>
    rw [Pack.loadRecords, Pack.walkRecords]
    cases pack.readRecord recordIndex with
    | none => exact ⟨s.assetBase, by rw [Pack.visitEntries, List.flatMap_nil, s.addEntries_nil]⟩
    | some record =>
      by_cases hr : record.runtimeReady = true
      · simp only [hr, Bool.not_true, Bool.false_eq_true, if_false, pack.loadAssets_eq]
        cases hw : pack.walkAssets s.assetBase record.assetCandidateCount.toNat 0 with
        | mk complete assets =>
          cases complete with
          | false => exact ⟨s.assetBase, by rw [pack.visitEntries_map]; rfl⟩
          | true =>
            obtain ⟨assetBase, h⟩ := ih (recordIndex + 1)
              { s.addEntries (assets.flatMap (pack.assetEntries record)) with
                assetBase := s.assetBase + record.assetCandidateCount }
            refine ⟨assetBase, h.trans ?_⟩
            rw [← pack.visitEntries_map]
            simp only [Pack.visitEntries, List.flatMap_append, LoadState.addEntries_append]
            rfl
      · simp only [hr, Bool.not_false, if_true]
        exact ih _ _

theorem loadPhrb_eq_of_none {path file : Bytes} (h : openPhrb path file = none) (p : Provider) :
    loadPhrb p path file = (false, p) := by
  rw [loadPhrb, h]

theorem loadPhrb_eq_of_some {path file : Bytes} {pack : Pack} (h : openPhrb path file = some pack)
    (p : Provider) :
    loadPhrb p path file =
      (pack.complete && UInt32.ofNat pack.entries.length != 0, p.addEntries pack.entries) := by
  obtain ⟨assetBase, hload⟩ := pack.loadRecords_eq pack.header.recordCount.toNat 0 { provider := p }
  have hcomplete : pack.complete =
      (pack.walkRecords pack.header.recordCount.toNat 0 0).1 := rfl
  rw [loadPhrb, h]
  dsimp only
  rw [hload, hcomplete]
  cases (pack.walkRecords pack.header.recordCount.toNat 0 0).1 with
  | false => rfl
  | true => simp [LoadState.addEntries, Pack.entries, Pack.visits, Pack.visitEntries]

end Walk

/-- A failed load either rejected the header and changed nothing, or it was cut off, or its
counter is zero; in the last two cases exactly the entries of the rows visited before have
been appended, which is nothing when there were none. -/
theorem loadPhrb_failed (p : Provider) (path file : Bytes)
    (h : (loadPhrb p path file).1 = false) :
    openPhrb path file = none ∧ (loadPhrb p path file).2 = p ∨
    ∃ pack, openPhrb path file = some pack ∧
      (pack.complete = false ∨ pack.entries.length % 2 ^ 32 = 0) ∧
      (loadPhrb p path file).2 = p.addEntries pack.entries ∧
      (loadPhrb p path file).2.entries = p.entries ++ pack.entries ∧
      (pack.entries = [] → (loadPhrb p path file).2 = p) := by
  cases ho : openPhrb path file with
  | none => exact Or.inl ⟨rfl, by rw [loadPhrb_eq_of_none ho]⟩
  | some pack =>
    rw [loadPhrb_eq_of_some ho] at h ⊢
    refine Or.inr ⟨pack, rfl, ?_, rfl, p.addEntries_entries _, fun he => ?_⟩
    · rw [Bool.and_eq_false_iff, bne_eq_false_iff_eq] at h
      refine h.imp_right fun hz => ?_
      have hnat := congrArg UInt32.toNat hz
      rwa [UInt32.toNat_ofNat'] at hnat
    · rw [he, p.addEntries_nil]

/-- A version 2 package with a record, an asset of that record with the given dimensions, and
a blob of four bytes, announcing any number of records. -/
def singleAssetFile (recordCount width height : Nat) : Bytes :=
  phrbMagic ++ (headerLayout.zipWith encodeLE [2, recordCount, 1, 32, 84, 132, 132]).flatten ++
    (recordLayoutV2.zipWith encodeLE [0, 0, 1, 0, 0, 0, 0, 0, 0, 0, 0, 0, 1]).flatten ++
    (assetLayoutV2.zipWith encodeLE
      [0, 0, 0, 0, 0, width, height, 0x1908, 0x1401, 0, 0, 4]).flatten ++
    [0, 0, 0, 0]

def cutOffFile : Bytes := singleAssetFile 2 1 1

/-- Loading the cut-off file fails after its first record has been committed. -/
theorem loadPhrb_cutOffFile_failed :
    ∃ pack, openPhrb [] cutOffFile = some pack ∧ pack.complete = false ∧
      (loadPhrb {} [] cutOffFile).2.entries = pack.entries ∧ pack.entries.length = 1 := by
  obtain ⟨hnone, _⟩ | ⟨pack, hopen, hcut, _, hentries, _⟩ :=
    loadPhrb_failed {} [] cutOffFile (by decide +kernel)
  · exact absurd hnone (by decide +kernel)
  · have hlen : (loadPhrb {} [] cutOffFile).2.entries.length = 1 := by decide +kernel
    rw [hentries, List.nil_append] at hlen
    refine ⟨pack, hopen, hcut.resolve_right ?_, hentries, hlen⟩
    rw [hlen]
    decide

/-- A failed load does not in general leave the entries as they were. -/
theorem not_loadPhrb_atomic :
    ¬ ∀ (p : Provider) (path file : Bytes), (loadPhrb p path file).1 = false →
      (loadPhrb p path file).2.entries = p.entries := by
  intro h
  have hentries := congrArg List.length (h {} [] cutOffFile (by decide +kernel))
  have hlen : (loadPhrb {} [] cutOffFile).2.entries.length = 1 := by decide +kernel
  rw [hlen] at hentries
  cases hentries

end ParallelN64.Phrb
