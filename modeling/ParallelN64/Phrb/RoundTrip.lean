import ParallelN64.Phrb.Describe

/-!
# Reading back what was written

The tables of an emitted package read back row by row, the running asset base of the
reader meets the rows of each record, and every accepted row yields the entries its
manifest candidate describes, at the window of the file that holds its blob.
-/

namespace ParallelN64.Phrb

open ParallelN64.Core Replacement

theorem zero_notMem_utf8EncodeChar {c : Char} (h : c ≠ '\x00') :
    (0 : UInt8) ∉ String.utf8EncodeChar c := by
  have hpos : 0 < c.val.toNat := Nat.pos_of_ne_zero fun hz =>
    h (Char.ext (UInt32.toNat_inj.mp hz))
  have hbyte : ∀ n, 0 < n % 256 → 0 ≠ UInt8.ofNat n := fun n hn hz => by
    have hnat := congrArg UInt8.toNat hz
    rw [UInt8.toNat_ofNat'] at hnat
    exact absurd hnat (Nat.ne_of_lt hn)
  unfold String.utf8EncodeChar
  dsimp only
  split_ifs <;> simp only [List.mem_cons, List.not_mem_nil, or_false, not_or]
  · exact hbyte _ (by omega)
  · exact ⟨hbyte _ (by omega), hbyte _ (by omega)⟩
  · exact ⟨hbyte _ (by omega), hbyte _ (by omega), hbyte _ (by omega)⟩
  · exact ⟨hbyte _ (by omega), hbyte _ (by omega), hbyte _ (by omega), hbyte _ (by omega)⟩

theorem zero_notMem_encodeUtf8 {s : Text} (h : '\x00' ∉ s) : (0 : UInt8) ∉ encodeUtf8 s := by
  intro hmem
  obtain ⟨c, hc, hb⟩ := List.mem_flatMap.mp hmem
  exact zero_notMem_utf8EncodeChar (ne_of_mem_of_not_mem hc h) hb

theorem toNat_word32 {n : Int} (h : 0 ≤ n ∧ n < 256 ^ 4) : (word32 n).toNat = n.toNat := by
  rw [word32, UInt32.toNat_ofNat_of_lt']
  show n.toNat < 2 ^ 32
  omega

theorem runtimeReady_of_odd {record : PHRBRecord} {flags : Int} (h : 0 ≤ flags ∧ flags < 256 ^ 4)
    (hrecord : record.recordFlags = word32 flags) (hodd : flags % 2 = 1) :
    record.runtimeReady = true := by
  have hand : (record.recordFlags &&& phrbRecordFlagRuntimeReady).toNat = 1 := by
    rw [hrecord, UInt32.toNat_and, toNat_word32 h]
    show flags.toNat &&& 1 = 1
    rw [Nat.and_one_is_mod]
    omega
  rw [PHRBRecord.runtimeReady, bne_iff_ne]
  intro hz
  rw [hz] at hand
  cases hand

section Blobs

-- Conversion of a text to an integer in a base; the results hold for any conversion.
variable (parseInt : Nat → Text → Option Int)
variable (mode : AssetStorageMode) (blobs : Text → Option Bytes)
  (loader : Option AssetBlobLoader)

theorem storeAssets_spec {size total : Int} {assets : List AssetRecord} {stored : List StoredAsset}
    (h : storeAssets parseInt mode blobs size assets = some (stored, total)) :
    stored.map StoredAsset.toAssetRecord = assets ∧
      (∀ s ∈ stored, storage parseInt mode blobs s.record s.candidate = some s.storage) ∧
      ∀ pre s post, stored = pre ++ s :: post →
        s.blobOffset = size + (pre.map fun a => a.storage.blobSize).sum := by
  induction assets generalizing size stored total with
  | nil =>
    rw [storeAssets, Option.some.injEq, Prod.mk.injEq] at h
    obtain ⟨rfl, _⟩ := h
    simp
  | cons asset assets ih =>
    obtain ⟨store, hstore, h⟩ := Option.bind_eq_some_iff.mp h
    obtain ⟨⟨rest, t⟩, hrest, h⟩ := Option.bind_eq_some_iff.mp h
    obtain ⟨rfl, _⟩ := Prod.mk.injEq .. ▸ Option.some.inj h
    obtain ⟨hmap, hstorage, hoffset⟩ := ih hrest
    refine ⟨by rw [List.map_cons, hmap], ?_, ?_⟩
    · intro s hs
      obtain rfl | hs := List.mem_cons.mp hs
      · exact hstore
      · exact hstorage s hs
    · intro pre s post heq
      cases pre with
      | nil =>
        obtain ⟨rfl, _⟩ := List.cons.inj heq
        simp
      | cons a pre =>
        obtain ⟨rfl, hrest'⟩ := List.cons.inj heq
        rw [hoffset pre s post hrest', List.map_cons, List.sum_cons]
        exact Int.add_assoc ..

def chunkOf (asset : StoredAsset) : Bytes :=
  (blobChunk blobs loader asset).getD []

theorem blobSize_eq_length_chunk {asset : StoredAsset} {chunk : Bytes}
    (hstorage : storage parseInt mode blobs asset.record asset.candidate =
      some asset.storage)
    (hchunk : blobChunk blobs loader asset = some chunk) :
    asset.storage.blobSize = chunk.length := by
  unfold blobChunk at hchunk
  cases hready : asset.record.runtimeReady.truthy with
  | false =>
    rw [hready] at hchunk
    obtain rfl := Option.some.inj hchunk
    unfold storage at hstorage
    rw [hready, if_neg Bool.false_ne_true] at hstorage
    obtain ⟨format, _, hstorage⟩ := Option.bind_eq_some_iff.mp hstorage
    obtain ⟨textureFormat, _, hstorage⟩ := Option.bind_eq_some_iff.mp hstorage
    obtain ⟨pixelType, _, hstorage⟩ := Option.bind_eq_some_iff.mp hstorage
    exact congrArg Storage.blobSize (Option.some.inj hstorage).symm
  | true =>
    rw [hready] at hchunk
    obtain ⟨value, _, hchunk⟩ := Option.bind_eq_some_iff.mp hchunk
    split at hchunk
    next => cases hchunk
    next hlen =>
      obtain rfl := Option.some.inj hchunk
      exact (not_not.mp hlen).symm

theorem suppliedBlob_of_blobChunk {asset : StoredAsset} {chunk : Bytes}
    (hready : asset.record.runtimeReady.truthy = true)
    (hchunk : blobChunk blobs loader asset = some chunk) :
    suppliedBlob blobs loader asset.recordIndex asset.record asset.candidate =
      some chunk := by
  rw [blobChunk, hready] at hchunk
  obtain ⟨value, hvalue, hchunk⟩ := Option.bind_eq_some_iff.mp hchunk
  split at hchunk
  next => cases hchunk
  next =>
    obtain rfl := Option.some.inj hchunk
    exact hvalue

end Blobs

section Walk

-- Conversion of a text to an integer in a base; the results hold for any conversion.
variable (parseInt : Nat → Text → Option Int)
variable (mode : AssetStorageMode) (blobs : Text → Option Bytes)
  (loader : Option AssetBlobLoader)

/-- An opened package whose tables hold the packed rows of a manifest and whose blobs are
those written for its assets. -/
structure Emitted (records : List ManifestRecord) (stored : List StoredAsset)
    (offsets : Table Text Nat) (path file : Bytes) (pack : Pack) : Prop where
  opened : openPhrb path file = some pack
  version7 : pack.version7 = true
  recordCount : pack.header.recordCount.toNat = records.length
  assetCount : pack.header.assetCount.toNat = stored.length
  readRecord : ∀ i r, records[i]? = some r → ∃ vs row,
    recordFields parseInt offsets r = some vs ∧ packFields recordLayoutV4 vs = some row ∧
    pack.readRecord i = some (PHRBRecord.ofFieldsV4 (vs.map Int.toNat))
  readAsset : ∀ k s, stored[k]? = some s → ∃ ws row,
    assetFields parseInt offsets s = some ws ∧ packFields assetLayoutV7 ws = some row ∧
    pack.readAsset (.ofNat k) = some (PHRBAsset.ofFieldsV7 (ws.map Int.toNat))
  readString : ∀ v offset, offsets.lookup v = some offset → '\x00' ∉ v →
    readCString pack.stringBlob (word32 offset).toNat = some (encodeUtf8 v)
  stored_eq : stored.map StoredAsset.toAssetRecord = assetRecords 0 records
  storage_eq : ∀ s ∈ stored,
    storage parseInt mode blobs s.record s.candidate = some s.storage
  blobOffset_eq : ∀ pre s post, stored = pre ++ s :: post →
    s.blobOffset = (pre.map fun a => a.storage.blobSize).sum
  chunk_eq : ∀ s ∈ stored, blobChunk blobs loader s =
    some (chunkOf blobs loader s)
  file_eq : ∃ front, front.length = pack.header.blobOffset.toNat ∧
    file = front ++ (stored.map (chunkOf blobs loader)).flatten

variable {parseInt mode blobs loader}
variable {records : List ManifestRecord} {stored : List StoredAsset} {offsets : Table Text Nat}
  {path file : Bytes} {pack : Pack}

theorem walkAssets_of_readAsset {as : List PHRBAsset} (base ai : Nat)
    (hread : ∀ j a, as[j]? = some a → pack.readAsset (.ofNat (base + ai + j)) = some a)
    (hcount : base + ai + as.length ≤ pack.header.assetCount.toNat) :
    pack.walkAssets (.ofNat base) as.length (.ofNat ai) = (true, as) := by
  induction as generalizing ai with
  | nil => rfl
  | cons a as ih =>
    rw [List.length_cons] at hcount
    have hmax := pack.header.assetCount.toNat_lt
    have hlt : UInt32.ofNat base + UInt32.ofNat ai < pack.header.assetCount := by
      rw [← UInt32.ofNat_add, UInt32.lt_iff_toNat_lt, UInt32.toNat_ofNat_of_lt' (by
        show base + ai < 2 ^ 32
        omega)]
      omega
    have hrow : pack.readAsset (.ofNat base + .ofNat ai) = some a := by
      rw [← UInt32.ofNat_add]
      exact hread 0 a rfl
    have hrest : pack.walkAssets (.ofNat base) as.length (.ofNat ai + 1) = (true, as) := by
      have hnext : UInt32.ofNat ai + 1 = UInt32.ofNat (ai + 1) := (UInt32.ofNat_add ai 1).symm
      rw [hnext]
      refine ih (ai + 1) (fun j b hb => ?_) (by omega)
      rw [show base + (ai + 1) + j = base + ai + (j + 1) by omega]
      exact hread (j + 1) b hb
    rw [List.length_cons, Pack.walkAssets, if_pos hlt, hrow]
    simp only [hrest]

variable {pre post : List StoredAsset} {s : StoredAsset} {i : Nat} {r : ManifestRecord}
variable {identity : RecordIdentity} {record : PHRBRecord}

/-- The record row of a manifest record reads back as its identity and its strings. -/
structure RowOf (parseInt : Nat → Text → Option Int) (pack : Pack) (r : ManifestRecord)
    (record : PHRBRecord) (identity : RecordIdentity) : Prop where
  identity_eq : r.identity parseInt = some identity
  policyKey : pack.policyKey record = encodeUtf8 r.policyKey
  sampledObjectId : pack.sampledObjectId record = encodeUtf8 r.sampledObjectId
  fmt : record.fmt = identity.fmt
  siz : record.siz = identity.siz
  texOffset : record.texOffset = identity.off
  stride : record.stride = identity.stride
  width : record.width = identity.width
  height : record.height = identity.height
  formatsize : record.formatsize = identity.formatsize
  sampledLow32 : record.sampledLow32 = identity.sampledLow32
  sampledEntryPcrc : record.sampledEntryPcrc = identity.sampledEntryPcrc
  sampledSparsePcrc : record.sampledSparsePcrc = identity.sampledSparsePcrc

/-- The asset row of a candidate reads back as its numbers, its storage and the place and
size of its blob. -/
structure AssetRowOf (parseInt : Nat → Text → Option Int) (pack : Pack) (s : StoredAsset)
    (asset : PHRBAsset) (numbers : CandidateNumbers) (offset size : Nat) : Prop where
  numbers_eq : s.candidate.numbers parseInt = some numbers
  replacementId : pack.replacementId asset = encodeUtf8 s.candidate.replacementId
  width : asset.width = numbers.width
  height : asset.height = numbers.height
  format : asset.format = word32 s.storage.format
  textureFormat : asset.textureFormat = word32 s.storage.textureFormat
  pixelType : asset.pixelType = word32 s.storage.pixelType
  legacyFormatsize : asset.legacyFormatsize = numbers.legacyFormatsize
  selectorChecksum64 : asset.selectorChecksum64 = numbers.selectorChecksum64
  legacyChecksum64 : asset.legacyChecksum64 = numbers.legacyChecksum64
  rgbaOffset : asset.rgbaOffset = .ofNat offset
  rgbaSize : asset.rgbaSize = .ofNat size

section Entries

variable {s : StoredAsset} {record : PHRBRecord} {identity : RecordIdentity} {asset : PHRBAsset}
  {numbers : CandidateNumbers} {offset size : Nat}

theorem AssetRowOf.acceptsAsset_iff (hasset : AssetRowOf parseInt pack s asset numbers offset size)
    (hversion : pack.version7 = true) (hin : offset + size ≤ pack.rgbaBlobSize)
    (hsmall : offset + size < 2 ^ 64) :
    pack.acceptsAsset asset = true ↔
      ¬ (numbers.width = 0 ∨ numbers.height = 0 ∨ size = 0 ∨ 0xffffffff < size) := by
  have hoffset64 : (UInt64.ofNat offset).toNat = offset :=
    UInt64.toNat_ofNat_of_lt' (by show offset < 2 ^ 64; omega)
  have hsize64 : (UInt64.ofNat size).toNat = size :=
    UInt64.toNat_ofNat_of_lt' (by show size < 2 ^ 64; omega)
  have hzero : UInt64.ofNat size = 0 ↔ size = 0 := by
    rw [← UInt64.toNat_inj, hsize64]
    rfl
  have hmax : (0xffffffff : UInt64) < UInt64.ofNat size ↔ 0xffffffff < size := by
    rw [UInt64.lt_iff_toNat_lt, hsize64]
    rfl
  have hle : offset ≤ pack.rgbaBlobSize := by omega
  have hle' : size ≤ pack.rgbaBlobSize - offset := by omega
  rw [Pack.acceptsAsset, hasset.rgbaOffset, hasset.rgbaSize, hasset.width, hasset.height,
    hoffset64, hsize64, hversion]
  simp only [gt_iff_lt, Nat.not_lt_of_le hle, Nat.not_lt_of_le hle', decide_false, Bool.or_self,
    Bool.false_eq_true, if_false, Bool.not_true]
  simp [hzero, hmax, or_assoc]

theorem AssetRowOf.assetEntries_eq (hasset : AssetRowOf parseInt pack s asset numbers offset size)
    (hrecord : RowOf parseInt pack s.record record identity)
    (hversion : pack.version7 = true) (hin : offset + size ≤ pack.rgbaBlobSize)
    (hsmall : pack.header.blobOffset.toNat + (offset + size) < 2 ^ 64) :
    pack.assetEntries record asset =
      candidateEntries pack.path s.record identity s.candidate numbers s.storage
        (pack.header.blobOffset.toNat + offset) size := by
  have hdataOffset : pack.header.blobOffset.toUInt64 + UInt64.ofNat offset =
      UInt64.ofNat (pack.header.blobOffset.toNat + offset) := by
    rw [← UInt64.toNat_inj, UInt64.toNat_add, UInt32.toNat_toUInt64, UInt64.toNat_ofNat',
      UInt64.toNat_ofNat', Nat.add_mod_mod]
  have hdataSize : (UInt64.ofNat size).toUInt32 = UInt32.ofNat size := by
    rw [← UInt32.toNat_inj, UInt64.toNat_toUInt32, UInt64.toNat_ofNat', UInt32.toNat_ofNat']
    omega
  have hfamily : record.familyRuntimeRecord = identity.isFamily := by
    rw [PHRBRecord.familyRuntimeRecord, RecordIdentity.isFamily, hrecord.fmt, hrecord.siz,
      hrecord.texOffset, hrecord.stride, hrecord.width, hrecord.height]
  have haccept := hasset.acceptsAsset_iff hversion hin (by omega)
  unfold Pack.assetEntries candidateEntries
  by_cases ha : pack.acceptsAsset asset = true
  · rw [ha, if_neg (haccept.mp ha), hfamily, hasset.legacyChecksum64, hrecord.sampledEntryPcrc,
      hrecord.sampledSparsePcrc]
    have hcompat : pack.familyEntry record asset = compatEntry pack.path s.record identity
        s.candidate numbers s.storage (pack.header.blobOffset.toNat + offset) size := by
      simp only [Pack.familyEntry, compatEntry, hrecord.policyKey, hrecord.sampledObjectId,
        hrecord.formatsize, hrecord.sampledLow32, hrecord.sampledEntryPcrc,
        hrecord.sampledSparsePcrc, hasset.replacementId, hasset.width, hasset.height,
        hasset.format, hasset.textureFormat, hasset.pixelType, hasset.legacyFormatsize,
        hasset.selectorChecksum64, hasset.legacyChecksum64, hasset.rgbaOffset, hasset.rgbaSize,
        hdataOffset, hdataSize]
    have hnative : pack.sampledEntry record asset = nativeEntry pack.path s.record identity
        s.candidate numbers s.storage (pack.header.blobOffset.toNat + offset) size := by
      funext paletteCrc
      simp only [Pack.sampledEntry, nativeEntry, composeHiresChecksum64, hrecord.policyKey,
        hrecord.sampledObjectId, hrecord.fmt, hrecord.siz, hrecord.texOffset, hrecord.stride,
        hrecord.width, hrecord.height, hrecord.formatsize, hrecord.sampledLow32,
        hrecord.sampledEntryPcrc, hrecord.sampledSparsePcrc, hasset.replacementId, hasset.width,
        hasset.height, hasset.format, hasset.textureFormat, hasset.pixelType,
        hasset.selectorChecksum64, hasset.rgbaOffset, hasset.rgbaSize, hdataOffset, hdataSize]
    rw [hcompat, hnative]
    rfl
  · have ha' : pack.acceptsAsset asset = false := by simpa using ha
    rw [ha', if_pos (not_not.mp (mt haccept.mpr ha))]
    rfl

end Entries

theorem mem_candidateEntries {candidate : AssetCandidate} {numbers : CandidateNumbers}
    {store : Storage} {offset size : Nat} {e : Entry}
    (he : e ∈ candidateEntries path r identity candidate numbers store offset size) :
    e.dataOffset = .ofNat offset ∧ e.dataSize = .ofNat size ∧ size ≤ 0xffffffff := by
  unfold candidateEntries at he
  split at he
  next => cases he
  next hsize =>
    have hle : size ≤ 0xffffffff := by omega
    split at he
    next =>
      split at he
      next => cases he
      next =>
        rw [List.mem_singleton] at he
        subst he
        exact ⟨rfl, rfl, hle⟩
    next =>
      obtain ⟨paletteCrc, _, rfl⟩ := List.mem_map.mp he
      exact ⟨rfl, rfl, hle⟩

def entryWindow (file : Bytes) (e : Entry) : Bytes :=
  (file.drop e.dataOffset.toNat).take e.dataSize.toNat

theorem readAsset_cons {pack : Pack} {base : Nat} {asset : PHRBAsset} {as : List PHRBAsset}
    (hfirst : pack.readAsset (.ofNat base) = some asset)
    (hrest : ∀ j a, as[j]? = some a → pack.readAsset (.ofNat (base + 1 + j)) = some a) :
    ∀ j a, (asset :: as)[j]? = some a → pack.readAsset (.ofNat (base + j)) = some a := by
  intro j a ha
  cases j with
  | zero =>
    rw [List.getElem?_cons_zero, Option.some.injEq] at ha
    exact ha ▸ hfirst
  | succ j =>
    rw [show base + (j + 1) = base + 1 + j by omega]
    exact hrest j a ha

variable (h : Emitted parseInt mode blobs loader records stored offsets path file pack)

include h

theorem Emitted.sum_blobSize (hpre : ∀ a ∈ pre, a ∈ stored) :
    (pre.map fun a => a.storage.blobSize).sum =
      ((pre.map (chunkOf blobs loader)).flatten.length : Int) := by
  induction pre with
  | nil => rfl
  | cons a pre ih =>
    have ha := hpre a List.mem_cons_self
    have hsize := blobSize_eq_length_chunk parseInt mode blobs loader
      (h.storage_eq a ha) (h.chunk_eq a ha)
    rw [List.map_cons, List.sum_cons, ih fun b hb => hpre b (List.mem_cons_of_mem a hb), hsize,
      List.map_cons, List.flatten_cons, List.length_append]
    rfl

theorem Emitted.blobOffset_toNat (hs : stored = pre ++ s :: post) :
    s.blobOffset.toNat =
      (pre.map (chunkOf blobs loader)).flatten.length := by
  rw [h.blobOffset_eq pre s post hs,
    h.sum_blobSize fun a ha => hs ▸ List.mem_append_left _ ha, Int.toNat_natCast]

theorem Emitted.readRecord_rowOf (hr : records[i]? = some r) (hpolicy : '\x00' ∉ r.policyKey)
    (hobject : '\x00' ∉ r.sampledObjectId)
    (hcount : r.assetCandidateCount.index = some (r.assetCandidates.length : Int)) :
    ∃ record identity, pack.readRecord i = some record ∧ RowOf parseInt pack r record identity ∧
      record.assetCandidateCount.toNat = r.assetCandidates.length ∧
      (r.runtimeReady.truthy = true → record.runtimeReady = true) := by
  obtain ⟨vs, row, hvs, hrow, hread⟩ := h.readRecord i r hr
  obtain ⟨policyKeyOff, sampledObjectIdOff, flags, count, identity, hpolicyOff, hobjectOff, hodd,
    hindex, hidentity, hdecode, hflags, hcountMem⟩ := recordFields_eq_some parseInt hvs
  have hrange := packFields_inRange hrow (show ∀ w ∈ _, w = 4 by decide)
  obtain rfl : count = (r.assetCandidates.length : Int) :=
    Option.some.inj (hindex.symm.trans hcount)
  rw [hdecode] at hread
  refine ⟨_, identity, hread, ?_, ?_, fun hready => ?_⟩
  · exact {
      identity_eq := hidentity
      policyKey := by
        rw [Pack.policyKey, h.readString _ _ hpolicyOff hpolicy, Option.getD_some]
      sampledObjectId := by
        rw [Pack.sampledObjectId, h.readString _ _ hobjectOff hobject, Option.getD_some]
      fmt := rfl
      siz := rfl
      texOffset := rfl
      stride := rfl
      width := rfl
      height := rfl
      formatsize := rfl
      sampledLow32 := rfl
      sampledEntryPcrc := rfl
      sampledSparsePcrc := rfl }
  · exact toNat_word32 (hrange _ hcountMem)
  · exact runtimeReady_of_odd (hrange _ hflags) rfl (hodd hready)

theorem Emitted.rgbaBlobSize_eq :
    pack.rgbaBlobSize =
      (stored.map (chunkOf blobs loader)).flatten.length := by
  obtain ⟨front, hfront, hfile⟩ := h.file_eq
  obtain ⟨_, hsize, _⟩ := openPhrb_eq_some h.opened
  rw [Pack.rgbaBlobSize, hsize, hfile, List.length_append, hfront, Nat.add_sub_cancel_left]

theorem Emitted.readAsset_assetRowOf
    (hs : stored = pre ++ s :: post) (hid : '\x00' ∉ s.candidate.replacementId) :
    ∃ asset numbers, pack.readAsset (.ofNat pre.length) = some asset ∧
      AssetRowOf parseInt pack s asset numbers
        (pre.map (chunkOf blobs loader)).flatten.length
        (chunkOf blobs loader s).length := by
  have hmem : s ∈ stored := hs ▸ List.mem_append_right _ List.mem_cons_self
  obtain ⟨ws, row, hws, hpack, hread⟩ := h.readAsset pre.length s (by rw [hs]; simp)
  obtain ⟨replacementIdOff, numbers, hreplacement, hnumbers, hdecode⟩ :=
    assetFields_eq_some parseInt hws
  have hsize := blobSize_eq_length_chunk parseInt mode blobs loader
    (h.storage_eq s hmem) (h.chunk_eq s hmem)
  rw [hdecode, h.blobOffset_toNat hs, hsize, Int.toNat_natCast] at hread
  exact ⟨_, numbers, hread, {
    numbers_eq := hnumbers
    replacementId := by
      rw [Pack.replacementId, h.readString _ _ hreplacement hid, Option.getD_some]
    width := rfl
    height := rfl
    format := rfl
    textureFormat := rfl
    pixelType := rfl
    legacyFormatsize := rfl
    selectorChecksum64 := rfl
    legacyChecksum64 := rfl
    rgbaOffset := rfl
    rgbaSize := rfl }⟩

theorem Emitted.entryWindow_eq
    (hs : stored = pre ++ s :: post) {candidate : AssetCandidate} {numbers : CandidateNumbers}
    {store : Storage} {e : Entry}
    (he : e ∈ candidateEntries path r identity candidate numbers store
      (pack.header.blobOffset.toNat +
        (pre.map (chunkOf blobs loader)).flatten.length)
      (chunkOf blobs loader s).length) :
    entryWindow file e = chunkOf blobs loader s := by
  obtain ⟨hoffset, hsize, hmax⟩ := mem_candidateEntries he
  obtain ⟨front, hfront, hfile⟩ := h.file_eq
  obtain ⟨_, _, hlt, _⟩ := openPhrb_eq_some h.opened
  rw [hs, List.map_append, List.map_cons, List.flatten_append, List.flatten_cons] at hfile
  have hlen := congrArg List.length hfile
  simp only [List.length_append] at hlen
  have hoffsetNat : e.dataOffset.toNat = (front ++
      (pre.map (chunkOf blobs loader)).flatten).length := by
    rw [hoffset, ← hfront, ← List.length_append, UInt64.toNat_ofNat_of_lt']
    rw [List.length_append]
    show _ < 2 ^ 64
    omega
  have hsizeNat : e.dataSize.toNat = (chunkOf blobs loader s).length := by
    rw [hsize, UInt32.toNat_ofNat_of_lt']
    show _ < 2 ^ 32
    omega
  rw [entryWindow, hoffsetNat, hsizeNat, hfile, ← List.append_assoc, List.drop_left,
    List.take_left]

theorem Emitted.readAsset_eq
    (hs : stored = pre ++ s :: post) (hrow : RowOf parseInt pack s.record record identity)
    (hid : '\x00' ∉ s.candidate.replacementId) :
    ∃ asset numbers, pack.readAsset (.ofNat pre.length) = some asset ∧
      s.candidate.numbers parseInt = some numbers ∧
      pack.assetEntries record asset =
        candidateEntries path s.record identity s.candidate numbers s.storage
          (pack.header.blobOffset.toNat +
            (pre.map (chunkOf blobs loader)).flatten.length)
          (chunkOf blobs loader s).length := by
  obtain ⟨asset, numbers, hread, hasset⟩ := h.readAsset_assetRowOf hs hid
  obtain ⟨hpath, hfileSize, hlt, hle, _⟩ := openPhrb_eq_some h.opened
  have hblobs := h.rgbaBlobSize_eq
  rw [hs, List.map_append, List.map_cons, List.flatten_append, List.flatten_cons,
    List.length_append, List.length_append] at hblobs
  have htotal : pack.rgbaBlobSize = file.length - pack.header.blobOffset.toNat := by
    rw [Pack.rgbaBlobSize, hfileSize]
  exact ⟨asset, numbers, hread, hasset.numbers_eq,
    hpath ▸ hasset.assetEntries_eq hrow h.version7 (by omega) (by omega)⟩

theorem Emitted.readAssets_of_not_ready
    (hrow : RowOf parseInt pack r record identity) (hready : r.runtimeReady.truthy = false)
    {cs : List AssetCandidate} (hnul : ∀ c ∈ cs, '\x00' ∉ c.replacementId) {ss : List StoredAsset}
    (hs : stored = pre ++ (ss ++ post))
    (hmap : ss.map StoredAsset.toAssetRecord = cs.map fun c => ⟨i, r, c⟩) :
    (ss.map (chunkOf blobs loader)).flatten = [] ∧
    ∃ as : List PHRBAsset, as.length = cs.length ∧
      (∀ j a, as[j]? = some a → pack.readAsset (.ofNat (pre.length + j)) = some a) ∧
      as.flatMap (pack.assetEntries record) = [] := by
  induction cs generalizing pre ss with
  | nil =>
    obtain rfl : ss = [] := List.map_eq_nil_iff.mp hmap
    exact ⟨rfl, [], rfl, by simp, rfl⟩
  | cons c cs ih =>
    cases ss with
    | nil => cases hmap
    | cons s ss =>
      rw [List.map_cons, List.map_cons, List.cons.injEq] at hmap
      obtain ⟨hsr, hmap⟩ := hmap
      obtain rfl : s.record = r := congrArg AssetRecord.record hsr
      obtain rfl : s.candidate = c := congrArg AssetRecord.candidate hsr
      have hs' : stored = pre ++ s :: (ss ++ post) := hs
      have hchunk : chunkOf blobs loader s = [] := by
        rw [chunkOf, blobChunk, hready]
        rfl
      obtain ⟨asset, numbers, hread, _, hentries⟩ :=
        h.readAsset_eq hs' hrow (hnul s.candidate List.mem_cons_self)
      have hnext : stored = (pre ++ [s]) ++ (ss ++ post) := by rw [hs']; simp
      obtain ⟨hchunks, as, hlen, hreads, hrest⟩ :=
        ih (fun c' hc' => hnul c' (List.mem_cons_of_mem _ hc')) hnext hmap
      rw [List.length_append, List.length_singleton] at hreads
      refine ⟨by rw [List.map_cons, List.flatten_cons, hchunk, hchunks, List.nil_append],
        asset :: as, by rw [List.length_cons, hlen, List.length_cons],
        readAsset_cons hread hreads, ?_⟩
      rw [List.flatMap_cons, hrest, hentries, hchunk, candidateEntries, if_pos (by simp)]
      rfl

theorem Emitted.readAssets_of_ready
    (hrow : RowOf parseInt pack r record identity) (hready : r.runtimeReady.truthy = true)
    {cs : List AssetCandidate} (hnul : ∀ c ∈ cs, '\x00' ∉ c.replacementId) {ss : List StoredAsset}
    (hs : stored = pre ++ (ss ++ post))
    (hmap : ss.map StoredAsset.toAssetRecord = cs.map fun c => ⟨i, r, c⟩) :
    ∃ (as : List PHRBAsset) (es : List (Entry × Bytes)), as.length = cs.length ∧
      (∀ j a, as[j]? = some a → pack.readAsset (.ofNat (pre.length + j)) = some a) ∧
      describedCandidates parseInt mode blobs loader path
        pack.header.blobOffset.toNat i r identity
        (pre.map (chunkOf blobs loader)).flatten.length cs =
          some (es, ((pre ++ ss).map (chunkOf blobs loader)).flatten.length) ∧
      as.flatMap (pack.assetEntries record) = es.map Prod.fst ∧
      ∀ x ∈ es, entryWindow file x.1 = x.2 := by
  induction cs generalizing pre ss with
  | nil =>
    obtain rfl : ss = [] := List.map_eq_nil_iff.mp hmap
    exact ⟨[], [], rfl, by simp, by rw [describedCandidates, List.append_nil], rfl, by simp⟩
  | cons c cs ih =>
    cases ss with
    | nil => cases hmap
    | cons s ss =>
      rw [List.map_cons, List.map_cons, List.cons.injEq] at hmap
      obtain ⟨hsr, hmap⟩ := hmap
      obtain rfl : s.record = r := congrArg AssetRecord.record hsr
      obtain rfl : s.candidate = c := congrArg AssetRecord.candidate hsr
      obtain rfl : s.recordIndex = i := congrArg AssetRecord.recordIndex hsr
      have hs' : stored = pre ++ s :: (ss ++ post) := hs
      have hmem : s ∈ stored := hs' ▸ List.mem_append_right _ List.mem_cons_self
      have hblob := suppliedBlob_of_blobChunk blobs loader hready
        (h.chunk_eq s hmem)
      obtain ⟨asset, numbers, hread, hnumbers, hentries⟩ :=
        h.readAsset_eq hs' hrow (hnul s.candidate List.mem_cons_self)
      have hnext : stored = (pre ++ [s]) ++ (ss ++ post) := by rw [hs']; simp
      obtain ⟨as, es, hlen, hreads, hdescribed, hrest, hwindows⟩ :=
        ih (fun c' hc' => hnul c' (List.mem_cons_of_mem _ hc')) hnext hmap
      rw [List.length_append, List.length_singleton] at hreads
      rw [List.map_append, List.map_singleton, List.flatten_append, List.flatten_singleton,
        List.length_append, List.append_assoc, List.singleton_append] at hdescribed
      refine ⟨asset :: as,
        (candidateEntries path s.record identity s.candidate numbers s.storage
          (pack.header.blobOffset.toNat +
            (pre.map (chunkOf blobs loader)).flatten.length)
          (chunkOf blobs loader s).length).map
            (·, chunkOf blobs loader s) ++ es,
        by rw [List.length_cons, hlen, List.length_cons], readAsset_cons hread hreads, ?_, ?_, ?_⟩
      · rw [describedCandidates, hnumbers, h.storage_eq s hmem, hblob]
        simp only [Option.bind_eq_bind, Option.bind_some, hdescribed]
        rfl
      · rw [List.flatMap_cons, hrest, hentries, List.map_append, List.map_map]
        simp [Function.comp_def]
      · intro x hx
        obtain hx | hx := List.mem_append.mp hx
        · obtain ⟨e, he, rfl⟩ := List.mem_map.mp hx
          exact h.entryWindow_eq hs' he
        · exact hwindows x hx

theorem Emitted.walkRecords_eq
    (hnul : ∀ r ∈ records, '\x00' ∉ r.policyKey ∧ '\x00' ∉ r.sampledObjectId ∧
      ∀ c ∈ r.assetCandidates, '\x00' ∉ c.replacementId)
    (hcount : ∀ r ∈ records, r.assetCandidateCount.index = some (r.assetCandidates.length : Int))
    {rs rpre : List ManifestRecord} (hrs : records = rpre ++ rs) {ss : List StoredAsset}
    (hs : stored = pre ++ ss)
    (hmap : ss.map StoredAsset.toAssetRecord = assetRecords rpre.length rs) :
    ∃ es visits, describedRecords parseInt mode blobs loader path
        pack.header.blobOffset.toNat rpre.length
        (pre.map (chunkOf blobs loader)).flatten.length rs = some es ∧
      pack.walkRecords rs.length rpre.length (.ofNat pre.length) = (true, visits) ∧
      pack.visitEntries visits = es.map Prod.fst ∧
      ∀ x ∈ es, entryWindow file x.1 = x.2 := by
  induction rs generalizing rpre pre ss with
  | nil => exact ⟨[], [], rfl, rfl, rfl, by simp⟩
  | cons r rs ih =>
    have hmem : r ∈ records := hrs ▸ List.mem_append_right _ List.mem_cons_self
    obtain ⟨hpolicy, hobject, hids⟩ := hnul r hmem
    obtain ⟨record, identity, hread, hrow, hcandidates, hflag⟩ :=
      h.readRecord_rowOf (i := rpre.length) (by rw [hrs]; simp) hpolicy hobject (hcount r hmem)
    rw [assetRecords] at hmap
    obtain ⟨ss₁, ss₂, rfl, hmap₁, hmap₂⟩ := List.map_eq_append_iff.mp hmap
    have hlen₁ : ss₁.length = r.assetCandidates.length := by
      have hlen := congrArg List.length hmap₁
      simpa using hlen
    have hbase : UInt32.ofNat pre.length + record.assetCandidateCount =
        UInt32.ofNat (pre ++ ss₁).length := by
      rw [List.length_append, UInt32.ofNat_add, hlen₁, ← hcandidates, UInt32.ofNat_toNat]
    have hnext : records = (rpre ++ [r]) ++ rs := by rw [hrs]; simp
    have hs' : stored = (pre ++ ss₁) ++ ss₂ := by rw [hs, List.append_assoc]
    obtain ⟨es, visits, hdescribed, hwalk, hentries, hwindows⟩ :=
      ih hnext hs' (by rw [hmap₂, List.length_append, List.length_singleton])
    rw [List.length_append, List.length_singleton] at hdescribed hwalk
    have htotal : pre.length + 0 + r.assetCandidates.length ≤ pack.header.assetCount.toNat := by
      rw [h.assetCount, hs, List.length_append, List.length_append, hlen₁]
      omega
    rw [List.length_cons, Pack.walkRecords, hread]
    simp only [hbase, hcandidates]
    cases hready : r.runtimeReady.truthy with
    | false =>
      obtain ⟨hchunks, as, hlen, hreads, hnone⟩ :=
        h.readAssets_of_not_ready hrow hready hids hs hmap₁
      have hassets := walkAssets_of_readAsset pre.length 0 hreads (by omega)
      rw [List.map_append, List.flatten_append, hchunks, List.append_nil] at hdescribed
      rw [describedRecords, hready]
      cases record.runtimeReady with
      | false => exact ⟨es, visits, hdescribed, hwalk, hentries, hwindows⟩
      | true =>
        refine ⟨es, as.map (record, ·) ++ visits, hdescribed, ?_, ?_, hwindows⟩
        · rw [← hlen]
          simp only [Bool.not_true, Bool.false_eq_true, if_false]
          rw [show (0 : UInt32) = UInt32.ofNat 0 from rfl, hassets]
          simp only [hwalk]
        · rw [pack.visitEntries_append, pack.visitEntries_map, hnone, List.nil_append, hentries]
    | true =>
      obtain ⟨as, es₁, hlen, hreads, hdescribed₁, hentries₁, hwindows₁⟩ :=
        h.readAssets_of_ready hrow hready hids hs hmap₁
      have hassets := walkAssets_of_readAsset pre.length 0 hreads (by omega)
      rw [describedRecords, hready, hrow.identity_eq, hflag hready]
      refine ⟨es₁ ++ es, as.map (record, ·) ++ visits, ?_, ?_, ?_, ?_⟩
      · simp only [Bool.not_true, Bool.false_eq_true, if_false, Option.bind_eq_bind,
          Option.bind_some, hdescribed₁, hdescribed]
        rfl
      · rw [← hlen]
        simp only [Bool.not_true, Bool.false_eq_true, if_false]
        rw [show (0 : UInt32) = UInt32.ofNat 0 from rfl, hassets]
        simp only [hwalk]
      · rw [pack.visitEntries_append, pack.visitEntries_map, hentries₁, hentries, List.map_append]
      · intro x hx
        obtain hx | hx := List.mem_append.mp hx
        · exact hwindows₁ x hx
        · exact hwindows x hx

end Walk

theorem openPhrb_of_header (path rest : Bytes) {header : Bytes} {recordCount assetCount recordTableOffset
      assetTableOffset stringTableOffset blobOffset : Nat}
    (h : packFields headerLayout [7, recordCount, assetCount, recordTableOffset, assetTableOffset,
      stringTableOffset, blobOffset] = some header)
    (hstring : stringTableOffset ≤ blobOffset)
    (hblob : blobOffset ≤ (phrbMagic ++ header ++ rest).length)
    (hlt : (phrbMagic ++ header ++ rest).length < 2 ^ 63) :
    openPhrb path (phrbMagic ++ header ++ rest) = some
      { path := path
        size := (phrbMagic ++ header ++ rest).length
        header :=
          { magic := phrbMagic
            version := 7
            recordCount := .ofNat recordCount
            assetCount := .ofNat assetCount
            recordTableOffset := .ofNat recordTableOffset
            assetTableOffset := .ofNat assetTableOffset
            stringTableOffset := .ofNat stringTableOffset
            blobOffset := .ofNat blobOffset }
        blob := (phrbMagic ++ header ++ rest).take blobOffset } := by
  have hlen : header.length = 28 := length_packFields h
  have hrange := packFields_inRange h (show ∀ w ∈ _, w = 4 by decide)
  have hfields := readFields_packFields h []
  rw [List.append_nil] at hfields
  have hmagic : phrbMagic.length = 4 := rfl
  have hheader : (phrbMagic ++ header ++ rest).take headerSize = phrbMagic ++ header := by
    rw [List.take_left']
    rw [List.length_append, hlen]
    rfl
  have hblob32 : (UInt32.ofNat blobOffset).toNat = blobOffset := by
    have hb := (hrange blobOffset (by simp)).2
    exact UInt32.toNat_ofNat_of_lt' (by show blobOffset < 2 ^ 32; omega)
  have hstring32 : (UInt32.ofNat stringTableOffset).toNat = stringTableOffset :=
    UInt32.toNat_ofNat_of_lt' (by
      have hb := (hrange blobOffset (by simp)).2
      show stringTableOffset < 2 ^ 32
      omega)
  have hparsed : PHRBHeader.ofBytes (phrbMagic ++ header) =
      { magic := phrbMagic
        version := 7
        recordCount := .ofNat recordCount
        assetCount := .ofNat assetCount
        recordTableOffset := .ofNat recordTableOffset
        assetTableOffset := .ofNat assetTableOffset
        stringTableOffset := .ofNat stringTableOffset
        blobOffset := .ofNat blobOffset } := by
    rw [PHRBHeader.ofBytes, List.drop_left' hmagic, List.take_left' hmagic, hfields]
    rfl
  have hsize : ¬ ((phrbMagic ++ header ++ rest).length < headerSize ∨
      2 ^ 63 ≤ (phrbMagic ++ header ++ rest).length) := by
    rw [not_or, Nat.not_lt, Nat.not_le]
    refine ⟨?_, hlt⟩
    rw [List.length_append, List.length_append, hlen, hmagic, headerSize]
    omega
  rw [openPhrb, if_neg hsize, hheader, hparsed]
  have hoffsets : ¬ ((UInt32.ofNat stringTableOffset) > UInt32.ofNat blobOffset ∨
      blobOffset > (phrbMagic ++ header ++ rest).length) := by
    rw [not_or, gt_iff_lt, UInt32.lt_iff_toNat_lt, hblob32, hstring32]
    omega
  simp only [ne_eq, not_true_eq_false, false_or, and_false, if_false, hblob32]
  rw [if_neg hoffsets]

section Emission

-- Conversion of a text to an integer in a base; the results hold for any conversion.
variable {parseInt : Nat → Text → Option Int}
variable {mode : AssetStorageMode} {blobs : Text → Option Bytes}
  {loader : Option AssetBlobLoader} {records : List ManifestRecord}

theorem emit_eq_some {out : EmittedPackage}
    (h : emitBinaryPackageFromManifest parseInt mode blobs loader records =
      some out) :
    ∃ header recordTable stored total assetTable,
      let strings := StringTable.build encodeUtf8 (records.flatMap recordStrings)
      let recordTableOffset := headerSize
      let assetTableOffset := recordTableOffset + recordTable.flatten.length
      let stringTableOffset := assetTableOffset + assetTable.flatten.length
      let blobOffset := stringTableOffset + strings.1.length
      packFields headerLayout [7, records.length, stored.length, recordTableOffset,
        assetTableOffset, stringTableOffset, blobOffset] = some header ∧
      (records.mapM fun record =>
        (recordFields parseInt strings.2 record).bind (packFields recordLayoutV4)) =
          some recordTable ∧
      storeAssets parseInt mode blobs 0 (assetRecords 0 records) = some (stored, total) ∧
      (stored.mapM fun asset =>
        (assetFields parseInt strings.2 asset).bind (packFields assetLayoutV7)) =
          some assetTable ∧
      stored.mapM (blobChunk blobs loader) =
        some (stored.map (chunkOf blobs loader)) ∧
      out.file = phrbMagic ++ header ++ (recordTable.flatten ++ (assetTable.flatten ++
        (strings.1 ++ (stored.map (chunkOf blobs loader)).flatten))) ∧
      out.recordCount = records.length ∧ out.assetCount = stored.length ∧
      out.stringTableBytes = strings.1.length := by
  obtain ⟨tables, htables, h⟩ := Option.bind_eq_some_iff.mp h
  obtain ⟨recordTable, hrecords, htables⟩ := Option.bind_eq_some_iff.mp htables
  obtain ⟨⟨stored, total⟩, hstored, htables⟩ := Option.bind_eq_some_iff.mp htables
  obtain ⟨assetTable, hassets, htables⟩ := Option.bind_eq_some_iff.mp htables
  obtain rfl := Option.some.inj htables
  obtain ⟨header, hheader, h⟩ := Option.bind_eq_some_iff.mp h
  obtain ⟨chunks, hchunks, h⟩ := Option.bind_eq_some_iff.mp h
  obtain rfl := Option.some.inj h
  have hmap : chunks = stored.map (chunkOf blobs loader) := by
    have heq := congrArg (List.map fun c => Option.getD c []) (mapM_eq_some_iff.mp hchunks)
    rw [List.map_map, List.map_map] at heq
    exact ((List.map_id chunks).symm.trans heq.symm)
  subst hmap
  exact ⟨header, recordTable, stored, total, assetTable, hheader, hrecords, hstored, hassets,
    hchunks, by simp only [StringTable.build, List.append_assoc], rfl, rfl, rfl⟩

/-- An emitted file opens as a package that holds the packed rows of its manifest. -/
theorem emitted_of_emit {out : EmittedPackage}
    (h : emitBinaryPackageFromManifest parseInt mode blobs loader records =
      some out) (hlt : out.file.length < 2 ^ 63) (path : Bytes) :
    ∃ stored offsets pack,
      Emitted parseInt mode blobs loader records stored offsets path out.file
        pack ∧
      pack.header.blobOffset.toNat =
        headerSize + recordLayoutV4.sum * out.recordCount + assetLayoutV7.sum * out.assetCount +
          out.stringTableBytes := by
  obtain ⟨header, recordTable, stored, total, assetTable, hheader, hrecords, hstored, hassets,
    hchunks, hfile, hrecordCount, hassetCount, hstringBytes⟩ := emit_eq_some h
  obtain ⟨hmap, hstorage, hoffset⟩ := storeAssets_spec parseInt mode blobs hstored
  have hplaced := StringTable.placed_build encodeUtf8 (records.flatMap recordStrings)
  generalize StringTable.build encodeUtf8 (records.flatMap recordStrings) = strings at *
  have hheaderLen : header.length = 28 := length_packFields hheader
  have hrange := packFields_inRange hheader (show ∀ w ∈ _, w = 4 by decide)
  have hrecordLen : recordTable.length = records.length := length_of_mapM_eq_some hrecords
  have hassetLen : assetTable.length = stored.length := length_of_mapM_eq_some hassets
  have hrecordSize := length_flatten_of_length (length_of_mem_packedTable hrecords)
  have hassetSize := length_flatten_of_length (length_of_mem_packedTable hassets)
  have hmagic : phrbMagic.length = 4 := rfl
  have hheaderSize : headerSize = 32 := rfl
  have hword : ∀ n : Nat, (n : Int) ∈ [(7 : Int), records.length, stored.length, headerSize,
      (headerSize + recordTable.flatten.length : Nat),
      (headerSize + recordTable.flatten.length + assetTable.flatten.length : Nat),
      (headerSize + recordTable.flatten.length + assetTable.flatten.length +
        strings.1.length : Nat)] → (UInt32.ofNat n).toNat = n := by
    intro n hn
    have hb := (hrange n hn).2
    exact UInt32.toNat_ofNat_of_lt' (by show n < 2 ^ 32; omega)
  rw [hfile] at hlt ⊢
  have hopen := openPhrb_of_header path (recordTable.flatten ++
    (assetTable.flatten ++ (strings.1 ++
      (stored.map (chunkOf blobs loader)).flatten))) hheader (by omega)
    (by simp only [List.length_append]; omega) hlt
  have hfront : (phrbMagic ++ header ++ (recordTable.flatten ++
      (assetTable.flatten ++ strings.1))).length =
        headerSize + recordTable.flatten.length + assetTable.flatten.length + strings.1.length := by
    simp only [List.length_append]
    omega
  have hblob : (phrbMagic ++ header ++ (recordTable.flatten ++ (assetTable.flatten ++ (strings.1 ++
      (stored.map (chunkOf blobs loader)).flatten)))).take
        (headerSize + recordTable.flatten.length + assetTable.flatten.length + strings.1.length) =
      phrbMagic ++ header ++ (recordTable.flatten ++ (assetTable.flatten ++ strings.1)) := by
    rw [← hfront]
    simp only [← List.append_assoc, List.take_left]
  rw [hblob] at hopen
  have hpre : (phrbMagic ++ header).length = headerSize := by
    rw [List.length_append]
    omega
  refine ⟨stored, strings.2, _, {
    opened := hopen
    version7 := rfl
    recordCount := hword _ (by simp)
    assetCount := hword _ (by simp)
    readRecord := ?_
    readAsset := ?_
    readString := ?_
    stored_eq := hmap
    storage_eq := hstorage
    blobOffset_eq := fun pre s post hs => (hoffset pre s post hs).trans (Int.zero_add _)
    chunk_eq := ?_
    file_eq := ?_ }, ?_⟩
  · intro i r hr
    obtain ⟨vs, row, hvs, hpack, hread, hfields⟩ := readAt_packedTable hrecords
      (phrbMagic ++ header) (assetTable.flatten ++ strings.1) hr
    refine ⟨vs, row, hvs, hpack, ?_⟩
    rw [Pack.readRecord_of_version4 rfl]
    dsimp only
    rw [hword _ (by simp), ← hpre, hread, Option.map_some, hfields]
  · intro k s hs
    have hlength : (phrbMagic ++ header ++ recordTable.flatten).length =
        headerSize + recordTable.flatten.length := by
      rw [List.length_append, hpre]
    have hk : (UInt32.ofNat k).toNat = k := by
      have hstoredLt := (hrange stored.length (by simp)).2
      have hklt := (List.getElem?_eq_some_iff.mp hs).1
      exact UInt32.toNat_ofNat_of_lt' (by show k < 2 ^ 32; omega)
    obtain ⟨ws, row, hws, hpack, hread, hfields⟩ := readAt_packedTable hassets
      (phrbMagic ++ header ++ recordTable.flatten) strings.1 hs
    refine ⟨ws, row, hws, hpack, ?_⟩
    rw [List.append_assoc (phrbMagic ++ header), hlength] at hread
    rw [Pack.readAsset_of_version7 rfl]
    dsimp only
    rw [hword _ (by simp), hk, hread, Option.map_some, hfields]
  · intro v offset hv hnul
    have hlength : (phrbMagic ++ header ++ (recordTable.flatten ++ assetTable.flatten)).length =
        headerSize + recordTable.flatten.length + assetTable.flatten.length := by
      simp only [List.length_append]
      omega
    obtain ⟨pre, post, hbytes, hprelen⟩ := hplaced v offset hv
    have hoffset32 : (word32 offset).toNat = offset := by
      have hb := (hrange _ (List.mem_of_getElem? (i := 6) rfl)).2
      have hlen := congrArg List.length hbytes
      simp only [List.length_append] at hlen
      exact UInt32.toNat_ofNat_of_lt' (by show offset < 2 ^ 32; omega)
    rw [hoffset32, Pack.stringBlob]
    dsimp only
    have hsplit : phrbMagic ++ header ++ (recordTable.flatten ++ (assetTable.flatten ++ strings.1)) =
        phrbMagic ++ header ++ (recordTable.flatten ++ assetTable.flatten) ++ strings.1 := by
      simp only [List.append_assoc]
    rw [hword _ (by simp), ← hlength, hsplit, List.drop_left]
    exact hplaced.readCString hv (zero_notMem_encodeUtf8 hnul)
  · intro s hs
    obtain ⟨k, hk⟩ := List.mem_iff_getElem?.mp hs
    have hchunk := getElem?_of_mapM_eq_some hchunks k
    rw [hk, List.getElem?_map, hk] at hchunk
    exact hchunk.symm
  · refine ⟨phrbMagic ++ header ++ (recordTable.flatten ++ (assetTable.flatten ++ strings.1)), ?_, ?_⟩
    · rw [hfront]
      exact (hword _ (by simp)).symm
    · simp only [List.append_assoc]
  · dsimp only
    rw [hword _ (by simp), hrecordSize, hassetSize, hrecordLen, hassetLen, hrecordCount,
      hassetCount, hstringBytes, Nat.mul_comm records.length, Nat.mul_comm stored.length]

/-- Loading an emitted package adds exactly the entries its manifest describes, in order, and
the window of each entry in the file is the blob supplied for its candidate. -/
theorem loadPhrb_emit (p : Provider) (path : Bytes) {out : EmittedPackage}
    (hnul : ∀ r ∈ records, '\x00' ∉ r.policyKey ∧ '\x00' ∉ r.sampledObjectId ∧
      ∀ c ∈ r.assetCandidates, '\x00' ∉ c.replacementId)
    (hcount : ∀ r ∈ records, r.assetCandidateCount.index = some (r.assetCandidates.length : Int))
    (hemit : emitBinaryPackageFromManifest parseInt mode blobs loader records =
      some out)
    (hlt : out.file.length < 2 ^ 63) :
    ∃ es, describedRecords parseInt mode blobs loader path
        (headerSize + recordLayoutV4.sum * out.recordCount + assetLayoutV7.sum * out.assetCount +
          out.stringTableBytes) 0 0 records = some es ∧
      loadPhrb p path out.file =
        (UInt32.ofNat es.length != 0, p.addEntries (es.map Prod.fst)) ∧
      ∀ x ∈ es, entryWindow out.file x.1 = x.2 := by
  obtain ⟨stored, offsets, pack, h, hblobOffset⟩ := emitted_of_emit hemit hlt path
  obtain ⟨es, visits, hdescribed, hwalk, hentries, hwindows⟩ :=
    h.walkRecords_eq hnul hcount (List.nil_append _).symm (List.nil_append _).symm h.stored_eq
  have hvisits : pack.visits = visits := by
    rw [Pack.visits, h.recordCount]
    exact congrArg Prod.snd hwalk
  have hcomplete : pack.complete = true := by
    rw [Pack.complete, h.recordCount]
    exact congrArg Prod.fst hwalk
  refine ⟨es, hblobOffset ▸ hdescribed, ?_, hwindows⟩
  rw [loadPhrb_eq_of_some h.opened, hcomplete, Bool.true_and, Pack.entries, hvisits, hentries,
    List.length_map]

end Emission

/-- Conversion of unsigned digits in a base. -/
def parseDigits (base : Nat) (s : Text) : Option Int :=
  if s.isEmpty then none
  else s.foldlM (fun (n : Int) c =>
    let digit := if c.isDigit then c.toNat - '0'.toNat else c.toLower.toNat - 'a'.toNat + 10
    if c.isAlphanum && digit < base then some (n * base + digit) else none) 0

/-- A one-pixel candidate with a given legacy checksum. -/
def onePixelCandidate (legacyChecksum64 : Text) : AssetCandidate where
  replacementId := ['r']
  legacySourcePath := []
  materializedPath := ['m']
  variantGroupId := []
  legacyChecksum64 := legacyChecksum64
  legacyTextureCrc := []
  legacyPaletteCrc := []
  width := .int 1
  height := .int 1
  legacyFormatsize := .int 0

/-- A record of one one-pixel candidate. -/
def onePixelRecord (fmt : Int) (entryPcrc legacyChecksum64 : Text) (ready : Bool) :
    ManifestRecord where
  policyKey := ['p']
  sampledObjectId := ['o']
  canonicalIdentity :=
    { fmt := .int fmt
      siz := .int 0
      off := .int 0
      stride := .int 0
      wh := ['0', 'x', '0']
      formatsize := .int 0
      sampledEntryPcrc := .str entryPcrc }
  assetCandidateCount := .int 1
  assetCandidates := [onePixelCandidate legacyChecksum64]
  runtimeReady := .bool ready

/-- A record that is not runtime-ready in front of a native one is skipped. -/
theorem loadPhrb_emit_onePixel :
    ∃ (out : EmittedPackage) (es : List (Entry × Bytes)),
      emitBinaryPackageFromManifest parseDigits .rgba (fun _ => some [1, 2, 3, 4]) none
        [onePixelRecord 2 [] [] false, onePixelRecord 2 ['7'] [] true] = some out ∧
      loadPhrb {} [] out.file = (true, Provider.addEntries {} (es.map Prod.fst)) ∧
      es.length = 1 ∧ ∀ x ∈ es, entryWindow out.file x.1 = x.2 := by
  have hsome : (emitBinaryPackageFromManifest parseDigits .rgba (fun _ => some [1, 2, 3, 4]) none
      [onePixelRecord 2 [] [] false, onePixelRecord 2 ['7'] [] true]).isSome = true := by
    decide +kernel
  obtain ⟨out, hout⟩ := Option.isSome_iff_exists.mp hsome
  have hlength : (emitBinaryPackageFromManifest parseDigits .rgba (fun _ => some [1, 2, 3, 4]) none
      [onePixelRecord 2 [] [] false, onePixelRecord 2 ['7'] [] true]).all (fun out =>
        out.file.length < 2 ^ 63 && (loadPhrb {} [] out.file).2.entries.length = 1) = true := by
    decide +kernel
  rw [hout, Option.all_some, Bool.and_eq_true, decide_eq_true_eq, decide_eq_true_eq] at hlength
  obtain ⟨es, _, hload, hwindows⟩ :=
    loadPhrb_emit {} [] (by decide) (by decide) hout hlength.1
  have hone : es.length = 1 := by
    have hentries := hlength.2
    rwa [hload, Provider.addEntries_entries, List.nil_append, List.length_map] at hentries
  rw [hone] at hload
  exact ⟨out, es, hout, hload, hone, hwindows⟩

/-- A candidate with a nonempty blob in a record without sampled identity and legacy checksum
is not loaded at all. -/
theorem not_loadPhrb_emit_every_candidate :
    ¬ ∀ (parseInt : Nat → Text → Option Int) (mode : AssetStorageMode)
        (blobs : Text → Option Bytes) (loader : Option AssetBlobLoader)
        (records : List ManifestRecord) (out : EmittedPackage) (path : Bytes),
      (∀ s ∈ records.flatMap recordStrings, '\x00' ∉ s) →
      (∀ r ∈ records, ∀ n, r.canonicalIdentity.formatsize.toInt parseInt = some n → n < 2 ^ 16) →
      (∀ r ∈ records, ∀ c ∈ r.assetCandidates, ∀ n,
        c.legacyFormatsize.toInt parseInt = some n → n < 2 ^ 16) →
      (∀ r ∈ records, r.assetCandidateCount.index = some (r.assetCandidates.length : Int)) →
      emitBinaryPackageFromManifest parseInt mode blobs loader records =
        some out →
      ((assetRecords 0 records).filter fun a => a.record.runtimeReady.truthy &&
        (a.candidate.numbers parseInt).any (fun n => n.width != 0 && n.height != 0) &&
        (suppliedBlob blobs loader a.recordIndex a.record a.candidate).any
          fun blob => !blob.isEmpty).length ≤ (loadPhrb {} path out.file).2.entries.length := by
  intro h
  have hsome : (emitBinaryPackageFromManifest parseDigits .rgba (fun _ => some [1, 2, 3, 4]) none
      [onePixelRecord 0 ['7'] ['0'] true]).isSome = true := by decide +kernel
  obtain ⟨out, hout⟩ := Option.isSome_iff_exists.mp hsome
  have hload : (emitBinaryPackageFromManifest parseDigits .rgba (fun _ => some [1, 2, 3, 4]) none
      [onePixelRecord 0 ['7'] ['0'] true]).all (fun out =>
        (loadPhrb {} [] out.file).2.entries.length = 0) = true := by decide +kernel
  rw [hout, Option.all_some, decide_eq_true_eq] at hload
  have hle := h parseDigits .rgba (fun _ => some [1, 2, 3, 4]) none
    [onePixelRecord 0 ['7'] ['0'] true] out [] (by decide) (by decide) (by decide) (by decide) hout
  rw [hload] at hle
  revert hle
  decide +kernel

end ParallelN64.Phrb
