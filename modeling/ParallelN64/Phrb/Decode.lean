import ParallelN64.Phrb.Load

/-!
# Decoding the entries of a package

An entry is decoded by reading its window of the file, decompressing it when its format
says so, and expanding its pixels to four bytes each. Before version 7 the size check of
the loader multiplies the dimensions in 64 bits, and the entries it lets through decode
to exactly their pixels as long as that product does not wrap.
-/

namespace ParallelN64.Phrb

open ParallelN64.Core Replacement

/-- What is reported about a decoded replacement. -/
structure ReplacementMeta where
  replW : UInt32 := 0
  replH : UInt32 := 0
  origW : UInt32 := 0
  origH : UInt32 := 0
  vkImageIndex : UInt32 := 0xffffffff
  hasMips : Bool := false
  srgb : Bool := false
  deriving DecidableEq, Repr

structure ReplacementImage where
  replMeta : ReplacementMeta := {}
  rgba8 : Bytes := []
  deriving DecidableEq, Repr

def glTexfmtGz : UInt32 := 0x80000000

/-- The size of an entry's decoded pixels, or zero when it is unknown or too large. -/
def expectedDecodedSize (entry : Entry) : UInt32 :=
  let bpp : UInt64 :=
    if entry.textureFormat == glRgba && entry.pixelType == glUnsignedByte then 4
    else if entry.textureFormat == glRgb && entry.pixelType == glUnsignedByte then 3
    else if entry.textureFormat == glRgb && entry.pixelType == glUnsignedShort565 then 2
    else if entry.textureFormat == glRgba &&
        (entry.pixelType == glUnsignedShort4444 || entry.pixelType == glUnsignedShort5551) then 2
    else if entry.textureFormat == glLuminance && entry.pixelType == glUnsignedByte then 1
    else if entry.format == glRgba8 then 4
    else if entry.format == glRgb8 then 3
    else 0
  let pixels := entry.width.toUInt64 * entry.height.toUInt64
  let bytes := pixels * bpp
  if bpp == 0 || bytes > 0xffffffff then 0 else bytes.toUInt32

/-- Undo the compression of a compressed entry; the decompressor is given the data and the
size of its output buffer. -/
def decompressIfNeeded (uncompress : Bytes → Nat → Option Bytes) (entry : Entry) (blob : Bytes) :
    Option Bytes :=
  if entry.format &&& glTexfmtGz == 0 then some blob
  else
    let expectedSize := expectedDecodedSize entry
    if expectedSize == 0 then none else uncompress blob expectedSize.toNat

def expand4To8 (v : UInt32) : UInt8 := (v <<< 4 ||| v).toUInt8

def expand5To8 (v : UInt32) : UInt8 := (v <<< 3 ||| v >>> 2).toUInt8

def expand6To8 (v : UInt32) : UInt8 := (v <<< 2 ||| v >>> 4).toUInt8

def pixel16 (pixelData : Bytes) (i : Nat) : UInt32 :=
  ((pixelData.getD (2 * i) 0).toUInt16 ||| (pixelData.getD (2 * i + 1) 0).toUInt16 <<< 8).toUInt32

/-- Expand the pixels of an entry to red, green, blue and alpha bytes. -/
def decodePixelsRgba8 (entry : Entry) (pixelData : Bytes) : Option Bytes :=
  let pixelCount := entry.width.toNat * entry.height.toNat
  if pixelCount = 0 ∨ pixelCount > (2 ^ 64 - 1) / 4 then none
  -- resizing the output beyond the largest vector throws
  else if pixelCount * 4 > 2 ^ 63 - 1 then none
  else if entry.textureFormat == glRgba && entry.pixelType == glUnsignedByte then
    if pixelData.length < pixelCount * 4 then none else some (pixelData.take (pixelCount * 4))
  else if entry.textureFormat == glRgb && entry.pixelType == glUnsignedByte then
    if pixelData.length < pixelCount * 3 then none
    else some <| (List.range pixelCount).flatMap fun i =>
      [pixelData.getD (3 * i) 0, pixelData.getD (3 * i + 1) 0, pixelData.getD (3 * i + 2) 0, 255]
  else if entry.textureFormat == glRgb && entry.pixelType == glUnsignedShort565 then
    if pixelData.length < pixelCount * 2 then none
    else some <| (List.range pixelCount).flatMap fun i =>
      let v := pixel16 pixelData i
      [expand5To8 (v >>> 11 &&& 0x1f), expand6To8 (v >>> 5 &&& 0x3f), expand5To8 (v &&& 0x1f), 255]
  else if entry.textureFormat == glRgba && entry.pixelType == glUnsignedShort5551 then
    if pixelData.length < pixelCount * 2 then none
    else some <| (List.range pixelCount).flatMap fun i =>
      let v := pixel16 pixelData i
      [expand5To8 (v >>> 11 &&& 0x1f), expand5To8 (v >>> 6 &&& 0x1f),
        expand5To8 (v >>> 1 &&& 0x1f), if v &&& 1 != 0 then 255 else 0]
  else if entry.textureFormat == glRgba && entry.pixelType == glUnsignedShort4444 then
    if pixelData.length < pixelCount * 2 then none
    else some <| (List.range pixelCount).flatMap fun i =>
      let v := pixel16 pixelData i
      [expand4To8 (v >>> 12 &&& 0x0f), expand4To8 (v >>> 8 &&& 0x0f),
        expand4To8 (v >>> 4 &&& 0x0f), expand4To8 (v &&& 0x0f)]
  else if entry.textureFormat == glLuminance && entry.pixelType == glUnsignedByte then
    if pixelData.length < pixelCount then none
    else some <| (List.range pixelCount).flatMap fun i =>
      let l := pixelData.getD i 0
      [l, l, l, 255]
  else if pixelData.length = pixelCount * 4 then some pixelData
  else none

/-- The stored bytes of an entry: inline, or a window of its file. Positions from `2 ^ 63` on
are negative stream offsets, and a window past the end of the file cannot be read. -/
def readBlob (files : Bytes → Option Bytes) (entry : Entry) : Option Bytes :=
  if entry.inlineBlob then some entry.blob
  else
    match files entry.sourcePath with
    | none => none
    | some file =>
      if 2 ^ 63 ≤ entry.dataOffset.toNat then none
      else if entry.dataSize == 0 then some []
      else readAt file entry.dataOffset.toNat entry.dataSize.toNat

def decodeEntryRgba8 (files : Bytes → Option Bytes) (uncompress : Bytes → Nat → Option Bytes)
    (entry : Entry) : Option ReplacementImage :=
  match readBlob files entry with
  | none => none
  | some blob =>
    match decompressIfNeeded uncompress entry blob with
    | none => none
    | some pixels =>
      (decodePixelsRgba8 entry pixels).map fun rgba8 =>
        { replMeta := { replW := entry.width, replH := entry.height, vkImageIndex := 0xffffffff }
          rgba8 := rgba8 }

theorem length_flatMap_range_four (n : Nat) (f : Nat → Bytes) (h : ∀ i, (f i).length = 4) :
    ((List.range n).flatMap f).length = n * 4 := by
  rw [List.length_flatMap, List.map_congr_left fun i _ => h i]
  simp

theorem decodePixelsRgba8_of_length {entry : Entry} {pixelData : Bytes}
    (hpos : 0 < entry.width.toNat * entry.height.toNat)
    (hsmall : entry.width.toNat * entry.height.toNat * 4 < 2 ^ 63)
    (hlen : pixelData.length = entry.width.toNat * entry.height.toNat * 4) :
    ∃ rgba8, decodePixelsRgba8 entry pixelData = some rgba8 ∧
      rgba8.length = entry.width.toNat * entry.height.toNat * 4 := by
  unfold decodePixelsRgba8
  dsimp only
  generalize entry.width.toNat * entry.height.toNat = pixelCount at hpos hsmall hlen ⊢
  rw [if_neg (by omega), if_neg (by omega)]
  split
  · rw [if_neg (by omega)]
    exact ⟨_, rfl, by rw [List.length_take, hlen, Nat.min_self]⟩
  split
  · rw [if_neg (by omega)]
    exact ⟨_, rfl, length_flatMap_range_four _ _ fun _ => rfl⟩
  split
  · rw [if_neg (by omega)]
    exact ⟨_, rfl, length_flatMap_range_four _ _ fun _ => rfl⟩
  split
  · rw [if_neg (by omega)]
    exact ⟨_, rfl, length_flatMap_range_four _ _ fun _ => rfl⟩
  split
  · rw [if_neg (by omega)]
    exact ⟨_, rfl, length_flatMap_range_four _ _ fun _ => rfl⟩
  split
  · rw [if_neg (by omega)]
    exact ⟨_, rfl, length_flatMap_range_four _ _ fun _ => rfl⟩
  · exact ⟨_, rfl, hlen⟩

theorem decodeEntryRgba8_of_window {files : Bytes → Option Bytes}
    {uncompress : Bytes → Nat → Option Bytes} {entry : Entry} {file : Bytes}
    (hinline : entry.inlineBlob = false) (hfile : files entry.sourcePath = some file)
    (hformat : entry.format &&& glTexfmtGz = 0) (hlength : file.length < 2 ^ 63)
    (hrange : entry.dataOffset.toNat + entry.dataSize.toNat ≤ file.length)
    (hpos : 0 < entry.width.toNat * entry.height.toNat)
    (hsize : entry.dataSize.toNat = entry.width.toNat * entry.height.toNat * 4) :
    ∃ image, decodeEntryRgba8 files uncompress entry = some image ∧
      image.rgba8.length = entry.width.toNat * entry.height.toNat * 4 := by
  have hsmall : entry.dataSize.toNat < 2 ^ 63 := lt_trans entry.dataSize.toNat_lt (by decide)
  have hne : (entry.dataSize == 0) = false := by
    rw [beq_eq_false_iff_ne]
    intro hz
    rw [hz] at hsize
    simp only [UInt32.toNat_zero] at hsize
    omega
  have hblob : readBlob files entry = some
      ((file.drop entry.dataOffset.toNat).take entry.dataSize.toNat) := by
    rw [readBlob, hinline, hfile]
    simp only [Bool.false_eq_true, if_false, hne]
    rw [if_neg (by omega), readAt_eq_some]
    exact ⟨hrange, rfl⟩
  have hlen : ((file.drop entry.dataOffset.toNat).take entry.dataSize.toNat).length =
      entry.width.toNat * entry.height.toNat * 4 := by
    rw [List.length_take, List.length_drop]
    omega
  obtain ⟨rgba8, hdecode, hrgba⟩ := decodePixelsRgba8_of_length hpos (hsize ▸ hsmall) hlen
  rw [decodeEntryRgba8, hblob]
  simp only [decompressIfNeeded, hformat, beq_self_eq_true, if_true, hdecode, Option.map_some]
  exact ⟨_, rfl, hrgba⟩

variable {asset : PHRBAsset}

section Load

variable {pack : Pack}

/-- An asset row contributes entries when it is accepted and, in a runtime family, has a
legacy checksum. -/
def Pack.contributes (pack : Pack) (record : PHRBRecord) (asset : PHRBAsset) : Bool :=
  pack.acceptsAsset asset && !(record.familyRuntimeRecord && asset.legacyChecksum64 == 0)

theorem Pack.assetEntries_spec (pack : Pack) (record : PHRBRecord) (asset : PHRBAsset) :
    (pack.contributes record asset = true ↔ pack.assetEntries record asset ≠ []) ∧
    ∀ e ∈ pack.assetEntries record asset, e.sourcePath = pack.path ∧ e.inlineBlob = false ∧
      e.dataOffset = pack.header.blobOffset.toUInt64 + asset.rgbaOffset ∧
      e.dataSize = asset.rgbaSize.toUInt32 ∧ e.width = asset.width ∧ e.height = asset.height ∧
      e.format = asset.format := by
  unfold Pack.contributes Pack.assetEntries
  by_cases ha : pack.acceptsAsset asset = true
  · by_cases hf : record.familyRuntimeRecord = true
    · by_cases hz : asset.legacyChecksum64 = 0
      · simp [ha, hf, hz]
      · simp [ha, hf, hz, Pack.familyEntry]
    · simp [ha, hf, paletteCrcs_ne_nil, Pack.sampledEntry]
  · simp [ha]

theorem Pack.readAsset_format (hversion : pack.version7 = false) {i : UInt32}
    (h : pack.readAsset i = some asset) : asset.format = glRgba8 := by
  have hV2 : ∀ l, (PHRBAsset.ofFieldsV2 l).format = glRgba8 := fun l => by
    unfold PHRBAsset.ofFieldsV2
    split <;> rfl
  have hV3 : ∀ l, (PHRBAsset.ofFieldsV3 l).format = glRgba8 := fun l => by
    unfold PHRBAsset.ofFieldsV3
    split <;> rfl
  have hV5 : ∀ l, (PHRBAsset.ofFieldsV5 l).format = glRgba8 := fun l => by
    unfold PHRBAsset.ofFieldsV5
    split <;> rfl
  unfold Pack.readAsset Pack.readAssetRow at h
  rw [hversion] at h
  simp only [Bool.false_eq_true, if_false] at h
  split_ifs at h
  all_goals
    obtain ⟨row, _, rfl⟩ := Option.map_eq_some_iff.mp h
    first | exact hV5 _ | exact hV3 _ | exact hV2 _

theorem Pack.mem_walkAssets {assetBase : UInt32} {remaining : Nat} {ai : UInt32}
    (h : asset ∈ (pack.walkAssets assetBase remaining ai).2) :
    ∃ i, pack.readAsset i = some asset := by
  induction remaining generalizing ai with
  | zero => simp [Pack.walkAssets] at h
  | succ remaining ih =>
    rw [Pack.walkAssets] at h
    split at h
    next =>
      cases hread : pack.readAsset (assetBase + ai) with
      | none => simp [hread] at h
      | some a =>
        simp only [hread, List.mem_cons] at h
        obtain rfl | h := h
        · exact ⟨_, hread⟩
        · exact ih h
    next => simp at h

theorem Pack.mem_walkRecords {remaining recordIndex : Nat} {assetBase : UInt32}
    {v : PHRBRecord × PHRBAsset}
    (h : v ∈ (pack.walkRecords remaining recordIndex assetBase).2) :
    ∃ i, pack.readAsset i = some v.2 := by
  induction remaining generalizing recordIndex assetBase with
  | zero => simp [Pack.walkRecords] at h
  | succ remaining ih =>
    rw [Pack.walkRecords] at h
    cases hread : pack.readRecord recordIndex with
    | none => simp [hread] at h
    | some record =>
      simp only [hread] at h
      split at h
      next => exact ih h
      next =>
        have hassets : ∀ w ∈ (pack.walkAssets assetBase
            record.assetCandidateCount.toNat 0).2.map (record, ·),
            ∃ i, pack.readAsset i = some w.2 := by
          intro w hw
          obtain ⟨asset, hasset, rfl⟩ := List.mem_map.mp hw
          exact Pack.mem_walkAssets hasset
        cases hw : pack.walkAssets assetBase record.assetCandidateCount.toNat 0 with
        | mk complete assets =>
          rw [hw] at h hassets
          cases complete with
          | false => exact hassets v h
          | true =>
            rw [List.mem_append] at h
            obtain h | h := h
            · exact hassets v h
            · exact ih h

theorem Pack.acceptsAsset_spec (hversion : pack.version7 = false)
    (h : pack.acceptsAsset asset = true) :
    asset.rgbaOffset.toNat + asset.rgbaSize.toNat ≤ pack.rgbaBlobSize ∧
      0 < asset.width.toNat * asset.height.toNat ∧ asset.rgbaSize.toNat < 2 ^ 32 ∧
      asset.rgbaSize.toNat = asset.width.toNat * asset.height.toNat * 4 % 2 ^ 64 := by
  unfold Pack.acceptsAsset at h
  rw [hversion] at h
  split at h
  next => cases h
  next hrange =>
    split at h
    next => cases h
    next hsize =>
      simp only [Bool.not_false, if_true, beq_iff_eq] at h
      simp only [gt_iff_lt, Bool.or_eq_true, decide_eq_true_eq, not_or, Nat.not_lt] at hrange
      simp only [Bool.or_eq_true, beq_iff_eq, decide_eq_true_eq, not_or, gt_iff_lt,
        UInt64.lt_iff_toNat_lt, Nat.not_lt] at hsize
      obtain ⟨⟨⟨hw, hh⟩, _⟩, hmax⟩ := hsize
      have hw' : 0 < asset.width.toNat :=
        Nat.pos_of_ne_zero fun hz => hw (UInt32.toNat_inj.mp (by rw [hz]; rfl))
      have hh' : 0 < asset.height.toNat :=
        Nat.pos_of_ne_zero fun hz => hh (UInt32.toNat_inj.mp (by rw [hz]; rfl))
      have hmax' : asset.rgbaSize.toNat ≤ 0xffffffff := hmax
      refine ⟨by omega, Nat.mul_pos hw' hh', by omega, ?_⟩
      rw [h, UInt64.toNat_mul, UInt64.toNat_mul, UInt32.toNat_toUInt64, UInt32.toNat_toUInt64,
        Nat.mod_mul_mod]
      rfl

end Load

/-- An entry whose size is that of its pixels, whose range lies inside the file, and which
decodes to exactly its pixels. -/
def DecodesFully (files : Bytes → Option Bytes) (uncompress : Bytes → Nat → Option Bytes)
    (file : Bytes) (e : Entry) : Prop :=
  e.dataSize.toNat = e.width.toNat * e.height.toNat * 4 ∧
    e.dataOffset.toNat + e.dataSize.toNat ≤ file.length ∧
    ∃ image, decodeEntryRgba8 files uncompress e = some image ∧
      image.rgba8.length = e.width.toNat * e.height.toNat * 4

theorem Pack.assetEntries_decodesFully_iff {files : Bytes → Option Bytes}
    {uncompress : Bytes → Nat → Option Bytes} {path file : Bytes} {pack : Pack}
    (hopen : openPhrb path file = some pack) (hfile : files path = some file)
    (hversion : pack.version7 = false) (record : PHRBRecord) {i : UInt32}
    (hread : pack.readAsset i = some asset) :
    (∀ e ∈ pack.assetEntries record asset, DecodesFully files uncompress file e) ↔
      (pack.contributes record asset = true →
        asset.width.toNat * asset.height.toNat * 4 < 2 ^ 64) := by
  obtain ⟨hpath, hsize, hlength, hblob, _⟩ := openPhrb_eq_some hopen
  obtain ⟨hcontributes, hspec⟩ := pack.assetEntries_spec record asset
  constructor
  · intro h hc
    obtain ⟨e, he⟩ := List.exists_mem_of_ne_nil _ (hcontributes.mp hc)
    obtain ⟨_, _, _, _, hw, hh, _⟩ := hspec e he
    have hfull := (h e he).1
    have hlt := e.dataSize.toNat_lt
    rw [hw, hh] at hfull
    omega
  · intro h e he
    have hc := hcontributes.mpr (List.ne_nil_of_mem he)
    have haccept : pack.acceptsAsset asset = true := (Bool.and_eq_true_iff.mp hc).1
    obtain ⟨hrange, hpos, hmax, hproduct⟩ := Pack.acceptsAsset_spec hversion haccept
    rw [Nat.mod_eq_of_lt (h hc)] at hproduct
    obtain ⟨hsource, hinline, hoffset, hdata, hw, hh, hformat⟩ := hspec e he
    have hdataNat : e.dataSize.toNat = asset.rgbaSize.toNat := by
      rw [hdata, UInt64.toNat_toUInt32, Nat.mod_eq_of_lt hmax]
    have hblobSize : pack.rgbaBlobSize = file.length - pack.header.blobOffset.toNat := by
      rw [Pack.rgbaBlobSize, hsize]
    have hoffsetNat : e.dataOffset.toNat =
        pack.header.blobOffset.toNat + asset.rgbaOffset.toNat := by
      rw [hoffset, UInt64.toNat_add, UInt32.toNat_toUInt64, Nat.mod_eq_of_lt (by omega)]
    have hin : e.dataOffset.toNat + e.dataSize.toNat ≤ file.length := by omega
    have hfull : e.dataSize.toNat = e.width.toNat * e.height.toNat * 4 := by
      rw [hdataNat, hproduct, hw, hh]
    refine ⟨hfull, hin, decodeEntryRgba8_of_window hinline ?_ ?_ hlength hin ?_ hfull⟩
    · rw [hsource, hpath, hfile]
    · rw [hformat, Pack.readAsset_format hversion hread]
      decide
    · rwa [hw, hh]

/-- Every entry that a package before version 7 adds decodes fully exactly when no visited
row that contributes entries has dimensions whose byte size wraps in 64 bits. -/
theorem loadPhrb_decodesFully_iff (p : Provider) (path file : Bytes)
    (files : Bytes → Option Bytes) (uncompress : Bytes → Nat → Option Bytes)
    (hfile : files path = some file)
    (hversion : ∀ pack, openPhrb path file = some pack → pack.header.version < 7) :
    (∀ e ∈ (loadPhrb p path file).2.entries.drop p.entries.length,
        DecodesFully files uncompress file e) ↔
      ∀ pack, openPhrb path file = some pack → ∀ v ∈ pack.visits,
        pack.contributes v.1 v.2 = true → v.2.width.toNat * v.2.height.toNat * 4 < 2 ^ 64 := by
  cases hopen : openPhrb path file with
  | none => simp [loadPhrb_eq_of_none hopen]
  | some pack =>
    have hv7 : pack.version7 = false := by
      have hlt := hversion pack hopen
      simp only [Pack.version7, decide_eq_false_iff_not, UInt32.not_le]
      exact hlt
    have hrow : ∀ v ∈ pack.visits,
        (∀ e ∈ pack.assetEntries v.1 v.2, DecodesFully files uncompress file e) ↔
          (pack.contributes v.1 v.2 = true →
            v.2.width.toNat * v.2.height.toNat * 4 < 2 ^ 64) := by
      intro v hv
      obtain ⟨i, hread⟩ := Pack.mem_walkRecords hv
      exact Pack.assetEntries_decodesFully_iff hopen hfile hv7 v.1 hread
    have hadded : (loadPhrb p path file).2.entries.drop p.entries.length = pack.entries := by
      rw [loadPhrb_eq_of_some hopen, Provider.addEntries_entries, List.drop_left]
    rw [hadded]
    simp only [Pack.entries, Pack.visitEntries, List.mem_flatMap]
    constructor
    · intro h q hq v hv
      obtain rfl := Option.some.inj hq
      exact (hrow v hv).mp fun e he => h e ⟨v, hv, he⟩
    · rintro h e ⟨v, hv, he⟩
      exact (hrow v hv).mpr (h pack rfl v hv) e he

/-- The one-pixel package adds an entry, and it decodes. -/
theorem loadPhrb_onePixel_decodesFully :
    (loadPhrb {} [] (singleAssetFile 1 1 1)).2.entries.length = 1 ∧
      ∀ e ∈ (loadPhrb {} [] (singleAssetFile 1 1 1)).2.entries.drop 0,
        DecodesFully (fun _ => some (singleAssetFile 1 1 1)) (fun _ _ => none)
          (singleAssetFile 1 1 1) e := by
  have hopened : (openPhrb [] (singleAssetFile 1 1 1)).all (fun pack =>
      pack.header.version < 7 && pack.visits.all fun v =>
        v.2.width.toNat * v.2.height.toNat * 4 < 2 ^ 64) = true := by decide +kernel
  refine ⟨by decide +kernel,
    (loadPhrb_decodesFully_iff {} [] (singleAssetFile 1 1 1) _ _ rfl ?_).mpr ?_⟩
  · intro pack hopen
    rw [hopen, Option.all_some, Bool.and_eq_true, decide_eq_true_eq] at hopened
    exact hopened.1
  · intro pack hopen v hv _
    rw [hopen, Option.all_some, Bool.and_eq_true, List.all_eq_true] at hopened
    simpa using hopened.2 v hv

/-- A package whose single asset claims `2147418113 * 2147549185 = 2 ^ 62 + 1` pixels and
stores four bytes is loaded. -/
theorem not_loadPhrb_decodesFully :
    ¬ ∀ (p : Provider) (path file : Bytes) (files : Bytes → Option Bytes)
        (uncompress : Bytes → Nat → Option Bytes), files path = some file →
        (∀ pack, openPhrb path file = some pack → pack.header.version < 7) →
        ∀ e ∈ (loadPhrb p path file).2.entries.drop p.entries.length,
          DecodesFully files uncompress file e := by
  intro h
  let file := singleAssetFile 1 2147418113 2147549185
  have hversion : (openPhrb [] file).all (fun pack => pack.header.version < 7) = true := by
    decide +kernel
  have hfull := h {} [] file (fun _ => some file) (fun _ _ => none) rfl fun pack hopen => by
    rw [hopen, Option.all_some, decide_eq_true_eq] at hversion
    exact hversion
  have hentry : (loadPhrb {} [] file).2.entries.any (fun e =>
      e.dataSize.toNat = 4 && e.width.toNat * e.height.toNat * 4 = 2 ^ 64 + 4) = true := by
    decide +kernel
  obtain ⟨e, he, hsize⟩ := List.any_eq_true.mp hentry
  simp only [Bool.and_eq_true, decide_eq_true_eq] at hsize
  have hdata := (hfull e he).1
  omega

end ParallelN64.Phrb
