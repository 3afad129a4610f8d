import ParallelN64.Phrb.Emit
import ParallelN64.Phrb.PixelLayout

/-!
# The decoder of the converter

The converter decodes the entries of a source pack to four bytes for each pixel; the runtime decodes
what a package stores. Both inflate compressed payloads and expand the six layouts of pixels.
-/

namespace ParallelN64.Conversion

open ParallelN64.Core Replacement Phrb

def expand4To8 (value : Nat) : Nat := (value &&& 0xF) <<< 4 ||| (value &&& 0xF)

def expand5To8 (value : Nat) : Nat :=
  let value := value &&& 0x1F
  (value <<< 3 ||| value >>> 2) &&& 0xFF

def expand6To8 (value : Nat) : Nat :=
  let value := value &&& 0x3F
  (value <<< 2 ||| value >>> 4) &&& 0xFF

/-- The number of bytes of an entry's decoded pixels, or zero when its format is unknown. -/
def expectedDecodedSize (entry : Entry) : Nat :=
  if entry.width.toNat ≤ 0 ∨ entry.height.toNat ≤ 0 then 0
  else
    let bpp :=
      if entry.textureFormat == glRgba && entry.pixelType == glUnsignedByte then 4
      else if entry.textureFormat == glRgb && entry.pixelType == glUnsignedByte then 3
      else if entry.textureFormat == glRgb && entry.pixelType == glUnsignedShort565 then 2
      else if entry.textureFormat == glRgba &&
          (entry.pixelType == glUnsignedShort4444 || entry.pixelType == glUnsignedShort5551) then 2
      else if entry.textureFormat == glLuminance && entry.pixelType == glUnsignedByte then 1
      else if entry.format == glRgba8 then 4
      else if entry.format == glRgb8 then 3
      else 0
    if bpp ≠ 0 then entry.width.toNat * entry.height.toNat * bpp else 0

/-- Undo the compression of a compressed entry; all of the stream is inflated. -/
def decompressEntryBlob (inflate : Bytes → Option Bytes) (entry : Entry) (blob : Bytes) :
    Option Bytes :=
  if entry.format &&& glTexfmtGz == 0 then some blob
  else if expectedDecodedSize entry = 0 then none
  else inflate blob

def byteAt (pixelData : Bytes) (i : Nat) : Nat := (pixelData.getD i 0).toNat

def valueAt (pixelData : Bytes) (i : Nat) : Nat :=
  byteAt pixelData (2 * i) ||| byteAt pixelData (2 * i + 1) <<< 8

def expandPixels (pixelCount : Nat) (pixel : Nat → List Nat) : Bytes :=
  (List.range pixelCount).flatMap fun i => (pixel i).map UInt8.ofNat

/-- Expand the pixels of an entry to red, green, blue and alpha bytes. -/
def decodePixelsRgba8 (entry : Entry) (pixelData : Bytes) : Option Bytes :=
  let pixelCount := entry.width.toNat * entry.height.toNat
  -- the buffer cannot be longer than the largest index
  if pixelCount * 4 > 2 ^ 63 - 1 then none
  else if entry.textureFormat == glRgba && entry.pixelType == glUnsignedByte then
    if pixelData.length < pixelCount * 4 then none else some (pixelData.take (pixelCount * 4))
  else if entry.textureFormat == glRgb && entry.pixelType == glUnsignedByte then
    if pixelData.length < pixelCount * 3 then none
    else some <| expandPixels pixelCount fun i =>
      [byteAt pixelData (3 * i), byteAt pixelData (3 * i + 1), byteAt pixelData (3 * i + 2), 255]
  else if entry.textureFormat == glRgb && entry.pixelType == glUnsignedShort565 then
    if pixelData.length < pixelCount * 2 then none
    else some <| expandPixels pixelCount fun i =>
      let value := valueAt pixelData i
      [expand5To8 (value >>> 11 &&& 0x1F), expand6To8 (value >>> 5 &&& 0x3F),
        expand5To8 (value &&& 0x1F), 255]
  else if entry.textureFormat == glRgba && entry.pixelType == glUnsignedShort5551 then
    if pixelData.length < pixelCount * 2 then none
    else some <| expandPixels pixelCount fun i =>
      let value := valueAt pixelData i
      [expand5To8 (value >>> 11 &&& 0x1F), expand5To8 (value >>> 6 &&& 0x1F),
        expand5To8 (value >>> 1 &&& 0x1F), if value &&& 1 ≠ 0 then 255 else 0]
  else if entry.textureFormat == glRgba && entry.pixelType == glUnsignedShort4444 then
    if pixelData.length < pixelCount * 2 then none
    else some <| expandPixels pixelCount fun i =>
      let value := valueAt pixelData i
      [expand4To8 (value >>> 12 &&& 0xF), expand4To8 (value >>> 8 &&& 0xF),
        expand4To8 (value >>> 4 &&& 0xF), expand4To8 (value &&& 0xF)]
  else if entry.textureFormat == glLuminance && entry.pixelType == glUnsignedByte then
    if pixelData.length < pixelCount then none
    else some <| expandPixels pixelCount fun i =>
      let value := byteAt pixelData i
      [value, value, value, 255]
  else if entry.format == glRgba8 && pixelData.length ≥ pixelCount * 4 then
    some (pixelData.take (pixelCount * 4))
  else none

def decodeBlob (inflate : Bytes → Option Bytes) (entry : Entry) (blob : Bytes) : Option Bytes :=
  (decompressEntryBlob inflate entry blob).bind (decodePixelsRgba8 entry)

section Layouts

theorem toNat_and_lt (v m : UInt32) {n : Nat} (hm : m.toNat < 2 ^ n) : (v &&& m).toNat < 2 ^ n := by
  rw [UInt32.toNat_and]
  exact Nat.and_lt_two_pow _ hm

theorem expand4To8_eq (v : UInt32) :
    UInt8.ofNat (expand4To8 (v.toNat &&& 0xF)) = Phrb.expand4To8 (v &&& 0x0f) := by
  have hall : ∀ x : Fin 16, UInt8.ofNat (expand4To8 x.val) =
      Phrb.expand4To8 (UInt32.ofNat x.val) := by
    decide
  have h := hall ⟨(v &&& 0x0f).toNat, toNat_and_lt v 0x0f (n := 4) (by decide)⟩
  rw [UInt32.ofNat_toNat] at h
  exact h

theorem expand5To8_eq (v : UInt32) :
    UInt8.ofNat (expand5To8 (v.toNat &&& 0x1F)) = Phrb.expand5To8 (v &&& 0x1f) := by
  have hall : ∀ x : Fin 32, UInt8.ofNat (expand5To8 x.val) =
      Phrb.expand5To8 (UInt32.ofNat x.val) := by
    decide
  have h := hall ⟨(v &&& 0x1f).toNat, toNat_and_lt v 0x1f (n := 5) (by decide)⟩
  rw [UInt32.ofNat_toNat] at h
  exact h

theorem expand6To8_eq (v : UInt32) :
    UInt8.ofNat (expand6To8 (v.toNat &&& 0x3F)) = Phrb.expand6To8 (v &&& 0x3f) := by
  have hall : ∀ x : Fin 64, UInt8.ofNat (expand6To8 x.val) =
      Phrb.expand6To8 (UInt32.ofNat x.val) := by
    decide
  have h := hall ⟨(v &&& 0x3f).toNat, toNat_and_lt v 0x3f (n := 6) (by decide)⟩
  rw [UInt32.ofNat_toNat] at h
  exact h

theorem valueAt_eq (pixelData : Bytes) (i : Nat) :
    valueAt pixelData i = (pixel16 pixelData i).toNat := by
  have hhigh := (pixelData.getD (2 * i + 1) 0).toNat_lt
  have hshift : ((pixelData.getD (2 * i + 1) 0).toUInt16 <<< 8).toNat =
      byteAt pixelData (2 * i + 1) <<< 8 := by
    rw [UInt16.toNat_shiftLeft, UInt8.toNat_toUInt16]
    apply Nat.mod_eq_of_lt
    change (pixelData.getD (2 * i + 1) 0).toNat <<< 8 < 2 ^ 16
    rw [Nat.shiftLeft_eq]
    omega
  rw [pixel16, UInt16.toNat_toUInt32, UInt16.toNat_or, hshift, UInt8.toNat_toUInt16]
  rfl

theorem ofNat_byteAt (pixelData : Bytes) (i : Nat) :
    UInt8.ofNat (byteAt pixelData i) = pixelData.getD i 0 := UInt8.ofNat_toNat

theorem shiftRight_toNat (v : UInt32) :
    v.toNat >>> 12 = (v >>> 12).toNat ∧ v.toNat >>> 11 = (v >>> 11).toNat ∧
      v.toNat >>> 8 = (v >>> 8).toNat ∧ v.toNat >>> 6 = (v >>> 6).toNat ∧
      v.toNat >>> 5 = (v >>> 5).toNat ∧ v.toNat >>> 4 = (v >>> 4).toNat ∧
      v.toNat >>> 1 = (v >>> 1).toNat := by
  simp only [UInt32.toNat_shiftRight]
  exact ⟨rfl, rfl, rfl, rfl, rfl, rfl, rfl⟩

theorem alpha_eq (v : UInt32) :
    UInt8.ofNat (if v.toNat &&& 1 ≠ 0 then 255 else 0) = if v &&& 1 != 0 then 255 else 0 := by
  have hbit : v.toNat &&& 1 ≠ 0 ↔ (v &&& 1 != 0) = true := by
    rw [bne_iff_ne, ne_eq, ne_eq, ← UInt32.toNat_inj, UInt32.toNat_and]
    exact Iff.rfl
  by_cases h : v.toNat &&& 1 ≠ 0
  · rw [if_pos h, if_pos (hbit.mp h)]
    rfl
  · rw [if_neg h, if_neg (mt hbit.mpr h)]
    rfl

theorem expandPixels_eq {count : Nat} {pixel : Nat → List Nat} {pixelData : Bytes}
    {l : PixelLayout} (h : ∀ i, (pixel i).map UInt8.ofNat = l.readPixel pixelData i) :
    expandPixels count pixel = l.readPixels count pixelData := by
  rw [expandPixels, PixelLayout.readPixels, funext h]

theorem decodePixelsRgba8_eq (entry : Entry) (pixelData : Bytes) :
    decodePixelsRgba8 entry pixelData =
      if 2 ^ 63 ≤ pixelCount entry * 4 then none
      else match layout entry with
        | some l =>
          if pixelData.length < pixelCount entry * l.bpp then none
          else some (l.readPixels (pixelCount entry) pixelData)
        | none =>
          if entry.format = glRgba8 ∧ pixelCount entry * 4 ≤ pixelData.length then
            some (pixelData.take (pixelCount entry * 4))
          else none := by
  unfold decodePixelsRgba8 layout layoutOf pixelCount
  dsimp only
  generalize entry.width.toNat * entry.height.toNat = count
  by_cases hcount : 2 ^ 63 ≤ count * 4
  · rw [if_pos hcount, if_pos (by omega)]
  · rw [if_neg hcount, if_neg (by omega)]
    simp only [Bool.and_eq_true, beq_iff_eq]
    split
    next =>
      split
      next hshort => exact (if_pos hshort).symm
      next hlong =>
        rw [← PixelLayout.readPixels_rgba8 (not_lt.mp hlong)]
        exact (if_neg hlong).symm
    split
    next =>
      rw [@expandPixels_eq count _ pixelData .rgb8 fun i => ?_]
      · rfl
      · simp only [List.map_cons, List.map_nil, ofNat_byteAt]
        rfl
    split
    next =>
      rw [@expandPixels_eq count _ pixelData .rgb565 fun i => ?_]
      · rfl
      · simp only [List.map_cons, List.map_nil, valueAt_eq, shiftRight_toNat, expand5To8_eq,
          expand6To8_eq]
        rfl
    split
    next =>
      rw [@expandPixels_eq count _ pixelData .rgba5551 fun i => ?_]
      · rfl
      · simp only [List.map_cons, List.map_nil, valueAt_eq, shiftRight_toNat, expand5To8_eq,
          alpha_eq]
        rfl
    split
    next =>
      rw [@expandPixels_eq count _ pixelData .rgba4444 fun i => ?_]
      · rfl
      · simp only [List.map_cons, List.map_nil, valueAt_eq, shiftRight_toNat, expand4To8_eq]
        rfl
    split
    next =>
      rw [@expandPixels_eq count _ pixelData .luminance8 fun i => ?_]
      · simp only [PixelLayout.bpp, Nat.mul_one]
      · simp only [List.map_cons, List.map_nil, ofNat_byteAt]
        rfl
    next => simp only [ge_iff_le, decide_eq_true_eq]

theorem expectedDecodedSize_eq_zero_iff {entry : Entry}
    (hcompressed : entry.format &&& glTexfmtGz ≠ 0) (hcount : 0 < pixelCount entry) :
    expectedDecodedSize entry = 0 ↔ layout entry = none := by
  obtain ⟨hrgba8, hrgb8⟩ := format_ne_of_compressed hcompressed
  have hdims : ¬ (entry.width.toNat ≤ 0 ∨ entry.height.toNat ≤ 0) := by
    rintro (hzero | hzero)
    · simp [pixelCount, Nat.le_zero.mp hzero] at hcount
    · simp [pixelCount, Nat.le_zero.mp hzero] at hcount
  have hne : entry.width.toNat * entry.height.toNat ≠ 0 := hcount.ne'
  unfold expectedDecodedSize layout layoutOf
  rw [if_neg hdims]
  simp only [Bool.and_eq_true, Bool.or_eq_true, beq_iff_eq, hrgba8, hrgb8, if_false]
  clear hdims hrgba8 hrgb8 hcompressed hcount
  generalize entry.width.toNat * entry.height.toNat = count at hne ⊢
  split_ifs
  all_goals first | (simp [hne]; done) | simp_all

end Layouts

/-- `uncompress` inflates into a buffer of a given size; it takes the length of its input as
32 bits. -/
def uncompress (inflate : Bytes → Option Bytes) (source : Bytes) (destLen : Nat) : Option Bytes :=
  if 2 ^ 32 ≤ source.length then none
  else match inflate source with
    | some data => if data.length ≤ destLen then some data else none
    | none => none

def runtimeDecodeBlob (inflate : Bytes → Option Bytes) (entry : Entry) (blob : Bytes) :
    Option Bytes :=
  (decompressIfNeeded (uncompress inflate) entry blob).bind (Phrb.decodePixelsRgba8 entry)

section Agreement

variable {inflate : Bytes → Option Bytes} {entry : Entry} {blob : Bytes}

theorem decodeBlob_uncompressed (h : entry.format &&& glTexfmtGz = 0) :
    decodeBlob inflate entry blob = decodePixelsRgba8 entry blob ∧
      runtimeDecodeBlob inflate entry blob = Phrb.decodePixelsRgba8 entry blob := by
  rw [decodeBlob, runtimeDecodeBlob, decompressEntryBlob, decompressIfNeeded]
  simp [h]

theorem decodeBlob_compressed (h : entry.format &&& glTexfmtGz ≠ 0)
    (hcount : 0 < pixelCount entry) :
    decodeBlob inflate entry blob =
      if 2 ^ 63 ≤ pixelCount entry * 4 then none
      else match layout entry, inflate blob with
        | some l, some data =>
          if data.length < pixelCount entry * l.bpp then none
          else some (l.readPixels (pixelCount entry) data)
        | _, _ => none := by
  rw [decodeBlob, decompressEntryBlob, if_neg (by simpa using h)]
  simp only [expectedDecodedSize_eq_zero_iff h hcount]
  cases hlayout : layout entry with
  | none => simp
  | some l =>
    rw [if_neg (by simp)]
    cases hdata : inflate blob with
    | none => simp
    | some data => rw [Option.bind_some, decodePixelsRgba8_eq, hlayout]

theorem runtimeDecodeBlob_compressed (h : entry.format &&& glTexfmtGz ≠ 0)
    (hcount : 0 < pixelCount entry) :
    runtimeDecodeBlob inflate entry blob =
      if 2 ^ 63 ≤ pixelCount entry * 4 then none
      else match layout entry, inflate blob with
        | some l, some data =>
          if data.length = pixelCount entry * l.bpp ∧ data.length < 2 ^ 32 ∧ blob.length < 2 ^ 32
          then some (l.readPixels (pixelCount entry) data)
          else none
        | _, _ => none := by
  rw [runtimeDecodeBlob, decompressIfNeeded, if_neg (by simpa using h)]
  by_cases hlarge : 2 ^ 63 ≤ pixelCount entry * 4
  · have hnone : Phrb.decodePixelsRgba8 entry = fun _ => none := by
      funext data
      rw [Phrb.decodePixelsRgba8_eq, if_pos (Or.inr hlarge)]
    rw [if_pos hlarge, hnone, Option.bind_fun_none]
  · rw [if_neg hlarge]
    have hsize := Phrb.expectedDecodedSize_eq h (not_le.mp hlarge)
    have hzero : (Phrb.expectedDecodedSize entry == 0) = true ↔
        (Phrb.expectedDecodedSize entry).toNat = 0 := by
      rw [beq_iff_eq, ← UInt32.toNat_inj]
      exact Iff.rfl
    simp only [hzero, uncompress]
    generalize (Phrb.expectedDecodedSize entry).toNat = size at hsize ⊢
    cases hlayout : layout entry with
    | none =>
      rw [hlayout] at hsize
      rw [if_pos hsize]
      rfl
    | some l =>
      rw [hlayout] at hsize
      have hpos := Nat.mul_pos hcount l.bpp_pos
      by_cases hover : 2 ^ 32 ≤ pixelCount entry * l.bpp
      · rw [if_pos (hsize.trans (if_pos hover))]
        cases hdata : inflate blob with
        | none => rfl
        | some data => exact (if_neg (by omega)).symm
      · obtain rfl : size = pixelCount entry * l.bpp := hsize.trans (if_neg hover)
        rw [if_neg hpos.ne']
        by_cases hblob : 2 ^ 32 ≤ blob.length
        · rw [if_pos hblob]
          cases hdata : inflate blob with
          | none => rfl
          | some data => exact (if_neg (by omega)).symm
        · rw [if_neg hblob]
          cases hdata : inflate blob with
          | none => rfl
          | some data =>
            dsimp only
            by_cases hfits : data.length ≤ pixelCount entry * l.bpp
            · rw [if_pos hfits, Option.bind_some, Phrb.decodePixelsRgba8_eq, hlayout,
                if_neg (by omega)]
              dsimp only
              by_cases hshort : data.length < pixelCount entry * l.bpp
              · rw [if_pos hshort, if_neg (by omega)]
              · rw [if_neg hshort, if_pos (by omega)]
            · rw [if_neg hfits, if_neg (by omega)]
              rfl

theorem length_of_decodePixelsRgba8 {pixelData rgba8 : Bytes}
    (h : decodePixelsRgba8 entry pixelData = some rgba8) : rgba8.length = pixelCount entry * 4 := by
  rw [decodePixelsRgba8_eq] at h
  split at h
  next => cases h
  next =>
    split at h
    next l _ =>
      split at h
      next => cases h
      next =>
        obtain rfl := Option.some.inj h
        exact l.length_readPixels _ _
    next =>
      split at h
      next hrgba8 =>
        obtain rfl := Option.some.inj h
        rw [List.length_take, Nat.min_eq_left hrgba8.2]
      next => cases h

theorem length_of_decodeBlob {rgba8 : Bytes} (h : decodeBlob inflate entry blob = some rgba8) :
    rgba8.length = pixelCount entry * 4 := by
  obtain ⟨pixelData, -, hdecode⟩ := Option.bind_eq_some_iff.mp h
  exact length_of_decodePixelsRgba8 hdecode

end Agreement

section Storing

variable (inflate : Bytes → Option Bytes) (entry : Entry) (blob : Bytes)

/-- A candidate that declares the formats, dimensions and size of an entry. -/
def declaring (candidate : AssetCandidate) : AssetCandidate :=
  { candidate with
    width := .int entry.width.toNat
    height := .int entry.height.toNat
    dataSize := .int blob.length
    format := .int entry.format.toNat
    textureFormat := .int entry.textureFormat.toNat
    pixelType := .int entry.pixelType.toNat }

/-- The entry that the runtime reads from a row with this storage. -/
def storedEntry (stored : Storage) : Entry :=
  { entry with
    format := UInt32.ofNat stored.format.toNat
    textureFormat := UInt16.ofNat stored.textureFormat.toNat
    pixelType := UInt16.ofNat stored.pixelType.toNat }

/-- A package that stores an entry as it is renders the pixels of one that stores them decoded. -/
def LegacyRendersAsRgba : Prop :=
  ∀ (parseInt : Nat → Text → Option Int) (assetRgbaBlobs : Text → Option Bytes)
    (record : ManifestRecord) (candidate : AssetCandidate) (legacy rgba : Storage),
    record.runtimeReady.truthy = true →
      storage parseInt .legacy assetRgbaBlobs record (declaring entry blob candidate) =
        some legacy →
      storage parseInt .rgba assetRgbaBlobs record (declaring entry blob candidate) = some rgba →
      ∀ rgba8, decodeBlob inflate entry blob = some rgba8 →
        runtimeDecodeBlob inflate (storedEntry entry legacy) blob =
          runtimeDecodeBlob inflate (storedEntry entry rgba) rgba8

/-- The converter and the runtime make the same of a stored blob, four bytes for each pixel, and
both ways to store the entry render them. -/
structure DecodersAgree : Prop where
  same : decodeBlob inflate entry blob = runtimeDecodeBlob inflate entry blob
  length : ∀ rgba8, decodeBlob inflate entry blob = some rgba8 →
    rgba8.length = entry.width.toNat * entry.height.toNat * 4
  legacy : LegacyRendersAsRgba inflate entry blob

/-- The entry of a legacy row: formats of zero are stored as their defaults. -/
def legacyEntry : Entry :=
  { entry with
    format := if entry.format = 0 then glRgba8 else entry.format
    textureFormat := if entry.textureFormat = 0 then glRgba else entry.textureFormat
    pixelType := if entry.pixelType = 0 then glUnsignedByte else entry.pixelType }

/-- The payloads on which the decoders agree. -/
def PayloadAgrees : Prop :=
  2 ^ 63 ≤ pixelCount entry * 4 ∨
    if entry.format &&& glTexfmtGz = 0 then
      layout entry = none →
        (blob.length = pixelCount entry * 4 ↔
          entry.format = glRgba8 ∧ pixelCount entry * 4 ≤ blob.length) ∧
        (entry.format = glRgba8 → blob.length = pixelCount entry * 4 →
          ∀ l, layout (legacyEntry entry) = some l → l.readPixels (pixelCount entry) blob = blob)
    else
      ∀ l data, layout entry = some l → inflate blob = some data →
        pixelCount entry * l.bpp ≤ data.length →
          data.length = pixelCount entry * l.bpp ∧ data.length < 2 ^ 32 ∧ blob.length < 2 ^ 32

end Storing

section LookUps

variable {inflate : Bytes → Option Bytes} {entry : Entry} {blob : Bytes}

theorem toInt_orElse (parseInt : Nat → Text → Option Int) (n : Nat) (d : Int) :
    (Scalar.orElse (.int n) (.int d)).toInt parseInt = some (if n = 0 then d else n) := by
  unfold Scalar.orElse Scalar.truthy
  by_cases h : n = 0
  · subst h
    rfl
  · simp [h, Scalar.toInt]

theorem ofNat_default32 (w d : UInt32) :
    UInt32.ofNat (if w.toNat = 0 then (d.toNat : Int) else w.toNat).toNat =
      if w = 0 then d else w := by
  have hzero : w.toNat = 0 ↔ w = 0 := UInt32.toNat_inj (b := 0)
  by_cases h : w = 0
  · rw [if_pos h, if_pos (hzero.mpr h), Int.toNat_natCast, UInt32.ofNat_toNat]
  · rw [if_neg h, if_neg (mt hzero.mp h), Int.toNat_natCast, UInt32.ofNat_toNat]

theorem ofNat_default16 (w d : UInt16) :
    UInt16.ofNat (if w.toNat = 0 then (d.toNat : Int) else w.toNat).toNat =
      if w = 0 then d else w := by
  have hzero : w.toNat = 0 ↔ w = 0 := UInt16.toNat_inj (b := 0)
  by_cases h : w = 0
  · rw [if_pos h, if_pos (hzero.mpr h), Int.toNat_natCast, UInt16.ofNat_toNat]
  · rw [if_neg h, if_neg (mt hzero.mp h), Int.toNat_natCast, UInt16.ofNat_toNat]

def rgbaEntry (entry : Entry) : Entry :=
  { entry with format := glRgba8, textureFormat := glRgba, pixelType := glUnsignedByte }

theorem storedEntry_legacy {parseInt : Nat → Text → Option Int}
    {assetRgbaBlobs : Text → Option Bytes} {record : ManifestRecord} {candidate : AssetCandidate}
    {legacy : Storage} (hready : record.runtimeReady.truthy = true)
    (h : storage parseInt .legacy assetRgbaBlobs record (declaring entry blob candidate) =
      some legacy) : storedEntry entry legacy = legacyEntry entry := by
  rw [storage, if_pos hready] at h
  simp only [declaredStorage, declaring, toInt_orElse, Option.bind_eq_bind, Option.bind_some,
    Option.pure_def, Option.some.injEq] at h
  subst h
  rw [storedEntry, legacyEntry, ofNat_default32, ofNat_default16, ofNat_default16]

theorem storedEntry_rgba {parseInt : Nat → Text → Option Int}
    {assetRgbaBlobs : Text → Option Bytes} {record : ManifestRecord} {candidate : AssetCandidate}
    {rgba : Storage} (hready : record.runtimeReady.truthy = true)
    (h : storage parseInt .rgba assetRgbaBlobs record candidate = some rgba) :
    storedEntry entry rgba = rgbaEntry entry := by
  rw [storage, if_pos hready] at h
  obtain ⟨blobSize, -, hstorage⟩ := Option.bind_eq_some_iff.mp h
  obtain rfl := Option.some.inj hstorage
  rfl

theorem exists_storage (entry : Entry) (blob : Bytes) (candidate : AssetCandidate)
    {record : ManifestRecord} (hready : record.runtimeReady.truthy = true) :
    (∃ legacy, storage (fun _ _ => none) .legacy (fun _ => none) record
        (declaring entry blob candidate) = some legacy) ∧
      ∃ rgba, storage (fun _ _ => none) .rgba (fun _ => none) record
        (declaring entry blob candidate) = some rgba := by
  constructor
  · simp only [storage, if_pos hready, declaredStorage, declaring, toInt_orElse,
      Option.bind_eq_bind, Option.bind_some, Option.pure_def]
    exact ⟨_, rfl⟩
  · simp only [storage, if_pos hready, rgbaBlobSize, declaring, Scalar.toInt,
      Option.bind_eq_bind, Option.bind_some, Option.pure_def]
    exact ⟨_, rfl⟩

theorem small_of_decodeBlob {rgba8 : Bytes} (h : decodeBlob inflate entry blob = some rgba8) :
    pixelCount entry * 4 < 2 ^ 63 := by
  obtain ⟨pixelData, -, hdecode⟩ := Option.bind_eq_some_iff.mp h
  by_contra hlarge
  rw [decodePixelsRgba8_eq, if_pos (not_lt.mp hlarge)] at hdecode
  cases hdecode

theorem small_of_runtimeDecodeBlob {rgba8 : Bytes}
    (h : runtimeDecodeBlob inflate entry blob = some rgba8) : pixelCount entry * 4 < 2 ^ 63 := by
  obtain ⟨pixelData, -, hdecode⟩ := Option.bind_eq_some_iff.mp h
  by_contra hlarge
  rw [Phrb.decodePixelsRgba8_eq, if_pos (Or.inr (not_lt.mp hlarge))] at hdecode
  cases hdecode

theorem runtimeDecodeBlob_rgbaEntry {rgba8 : Bytes} (hcount : 0 < pixelCount entry)
    (h : decodeBlob inflate entry blob = some rgba8) :
    runtimeDecodeBlob inflate (rgbaEntry entry) rgba8 = some rgba8 := by
  have hsmall := small_of_decodeBlob h
  have hlength := length_of_decodeBlob h
  have hformat : (rgbaEntry entry).format &&& glTexfmtGz = 0 := by
    change glRgba8 &&& glTexfmtGz = 0
    decide
  rw [(decodeBlob_uncompressed hformat).2, Phrb.decodePixelsRgba8_eq]
  change (if pixelCount entry = 0 ∨ 2 ^ 63 ≤ pixelCount entry * 4 then none else
    if rgba8.length < pixelCount entry * 4 then none
    else some (PixelLayout.rgba8.readPixels (pixelCount entry) rgba8)) = some rgba8
  rw [if_neg (by omega), if_neg (by omega), PixelLayout.readPixels_rgba8 hlength.ge, ← hlength,
    List.take_length]

theorem legacyRendersAsRgba_iff (hcount : 0 < pixelCount entry) :
    LegacyRendersAsRgba inflate entry blob ↔
      ∀ rgba8, decodeBlob inflate entry blob = some rgba8 →
        runtimeDecodeBlob inflate (legacyEntry entry) blob = some rgba8 := by
  constructor
  · intro h rgba8 hdecode
    let record : ManifestRecord :=
      { policyKey := [], sampledObjectId := [], assetCandidateCount := .int 0
        canonicalIdentity :=
          { fmt := .none, siz := .none, off := .none, stride := .none, wh := [],
            formatsize := .none } }
    let candidate : AssetCandidate :=
      { replacementId := [], legacySourcePath := [], materializedPath := [], variantGroupId := []
        legacyChecksum64 := [], legacyTextureCrc := [], legacyPaletteCrc := []
        width := .none, height := .none, legacyFormatsize := .none }
    obtain ⟨⟨legacy, hlegacy⟩, rgba, hrgba⟩ := @exists_storage entry blob candidate record rfl
    have hsame := h _ _ record candidate legacy rgba rfl hlegacy hrgba rgba8 hdecode
    rwa [storedEntry_legacy rfl hlegacy, storedEntry_rgba rfl hrgba,
      runtimeDecodeBlob_rgbaEntry hcount hdecode] at hsame
  · intro h parseInt assetRgbaBlobs record candidate legacy rgba hready hlegacy hrgba rgba8 hdecode
    rw [storedEntry_legacy hready hlegacy, storedEntry_rgba hready hrgba,
      runtimeDecodeBlob_rgbaEntry hcount hdecode]
    exact h rgba8 hdecode

theorem ne_zero_of_layout {l : PixelLayout} (h : layout entry = some l) :
    entry.textureFormat ≠ 0 ∧ entry.pixelType ≠ 0 := by
  unfold layout layoutOf at h
  split_ifs at h with h1 h2 h3 h4 h5 h6
  · exact ⟨h1.1 ▸ by decide, h1.2 ▸ by decide⟩
  · exact ⟨h2.1 ▸ by decide, h2.2 ▸ by decide⟩
  · exact ⟨h3.1 ▸ by decide, h3.2 ▸ by decide⟩
  · exact ⟨h4.1 ▸ by decide, h4.2 ▸ by decide⟩
  · exact ⟨h5.1 ▸ by decide, h5.2 ▸ by decide⟩
  · exact ⟨h6.1 ▸ by decide, h6.2 ▸ by decide⟩

theorem layout_legacyEntry {l : PixelLayout} (h : layout entry = some l) :
    layout (legacyEntry entry) = some l := by
  obtain ⟨hformat, htype⟩ := ne_zero_of_layout h
  rw [← h, layout, layout, legacyEntry, if_neg hformat, if_neg htype]

theorem legacyEntry_uncompressed (h : entry.format &&& glTexfmtGz = 0) :
    (legacyEntry entry).format &&& glTexfmtGz = 0 := by
  change (if entry.format = 0 then glRgba8 else entry.format) &&& glTexfmtGz = 0
  split
  next => decide
  next => exact h

theorem legacyEntry_compressed (h : entry.format &&& glTexfmtGz ≠ 0) {l : PixelLayout}
    (hlayout : layout entry = some l) : legacyEntry entry = entry := by
  obtain ⟨hformat, htype⟩ := ne_zero_of_layout hlayout
  have hne : entry.format ≠ 0 := by
    intro hzero
    exact h (by rw [hzero]; rfl)
  rw [legacyEntry, if_neg hformat, if_neg htype, if_neg hne]

theorem decodersAgree_compressed (h : entry.format &&& glTexfmtGz ≠ 0)
    (hcount : 0 < pixelCount entry) (hsmall : pixelCount entry * 4 < 2 ^ 63) :
    (decodeBlob inflate entry blob = runtimeDecodeBlob inflate entry blob ∧
        ∀ rgba8, decodeBlob inflate entry blob = some rgba8 →
          runtimeDecodeBlob inflate (legacyEntry entry) blob = some rgba8) ↔
      ∀ l data, layout entry = some l → inflate blob = some data →
        pixelCount entry * l.bpp ≤ data.length →
          data.length = pixelCount entry * l.bpp ∧ data.length < 2 ^ 32 ∧ blob.length < 2 ^ 32 := by
  have hpython := @decodeBlob_compressed inflate entry blob h hcount
  have hruntime := @runtimeDecodeBlob_compressed inflate entry blob h hcount
  rw [if_neg (not_le.mpr hsmall)] at hpython hruntime
  cases hlayout : layout entry with
  | none =>
    rw [hlayout] at hpython hruntime
    simp [hpython, hruntime]
  | some l =>
    rw [legacyEntry_compressed h hlayout]
    cases hdata : inflate blob with
    | none =>
      rw [hlayout, hdata] at hpython hruntime
      simp [hpython, hruntime]
    | some data =>
      rw [hlayout, hdata] at hpython hruntime
      dsimp only at hpython hruntime
      constructor
      · rintro ⟨hsame, -⟩ l' data' hl hdata' hlong
        obtain rfl := Option.some.inj hl
        obtain rfl := Option.some.inj hdata'
        rw [hpython, hruntime, if_neg (not_lt.mpr hlong)] at hsame
        by_contra hnot
        rw [if_neg hnot] at hsame
        cases hsame
      · intro hall
        have hsame : decodeBlob inflate entry blob = runtimeDecodeBlob inflate entry blob := by
          rw [hpython, hruntime]
          by_cases hshort : data.length < pixelCount entry * l.bpp
          · rw [if_pos hshort, if_neg (by omega)]
          · rw [if_neg hshort, if_pos (hall l data rfl rfl (not_lt.mp hshort))]
        exact ⟨hsame, fun rgba8 hdecode => hsame ▸ hdecode⟩

theorem decodersAgree_uncompressed (h : entry.format &&& glTexfmtGz = 0)
    (hcount : 0 < pixelCount entry) (hsmall : pixelCount entry * 4 < 2 ^ 63) :
    (decodeBlob inflate entry blob = runtimeDecodeBlob inflate entry blob ∧
        ∀ rgba8, decodeBlob inflate entry blob = some rgba8 →
          runtimeDecodeBlob inflate (legacyEntry entry) blob = some rgba8) ↔
      (layout entry = none →
        (blob.length = pixelCount entry * 4 ↔
          entry.format = glRgba8 ∧ pixelCount entry * 4 ≤ blob.length) ∧
        (entry.format = glRgba8 → blob.length = pixelCount entry * 4 →
          ∀ l, layout (legacyEntry entry) = some l →
            l.readPixels (pixelCount entry) blob = blob)) := by
  have hpixels : ∀ e : Entry, pixelCount e = pixelCount entry → Phrb.decodePixelsRgba8 e blob =
      match layout e with
      | some l =>
        if blob.length < pixelCount entry * l.bpp then none
        else some (l.readPixels (pixelCount entry) blob)
      | none => if blob.length = pixelCount entry * 4 then some blob else none := by
    intro e he
    have hruntime := Phrb.decodePixelsRgba8_eq e blob
    rw [he, if_neg (by omega)] at hruntime
    exact hruntime
  rw [(decodeBlob_uncompressed h).1, (decodeBlob_uncompressed h).2,
    (decodeBlob_uncompressed (legacyEntry_uncompressed h)).2, decodePixelsRgba8_eq,
    hpixels entry rfl, hpixels (legacyEntry entry) rfl, if_neg (not_le.mpr hsmall)]
  cases hlayout : layout entry with
  | some l =>
    rw [layout_legacyEntry hlayout]
    simp only [reduceCtorEq, false_implies, iff_true, true_and]
    exact fun _ hdecode => hdecode
  | none =>
    dsimp only
    simp only [true_implies]
    by_cases hlong : entry.format = glRgba8 ∧ pixelCount entry * 4 ≤ blob.length
    · rw [if_pos hlong]
      by_cases hlength : blob.length = pixelCount entry * 4
      · rw [if_pos hlength, List.take_of_length_le hlength.le]
        constructor
        · rintro ⟨-, hlegacy⟩
          refine ⟨iff_of_true hlength hlong, fun _ _ l hl => ?_⟩
          have hread := hlegacy blob rfl
          have hle := Nat.mul_le_mul_left (pixelCount entry) l.bpp_le
          rw [hl] at hread
          dsimp only at hread
          rw [if_neg (by omega)] at hread
          exact Option.some.inj hread
        · rintro ⟨-, hreads⟩
          refine ⟨rfl, fun rgba8 hdecode => ?_⟩
          obtain rfl := Option.some.inj hdecode
          cases hl : layout (legacyEntry entry) with
          | none => rfl
          | some l =>
            have hle := Nat.mul_le_mul_left (pixelCount entry) l.bpp_le
            dsimp only
            rw [if_neg (by omega), hreads hlong.1 hlength l hl]
      · rw [if_neg hlength]
        simp only [reduceCtorEq, false_and, hlength, hlong, and_self, false_iff, not_true_eq_false]
    · rw [if_neg hlong]
      by_cases hlength : blob.length = pixelCount entry * 4
      · rw [if_pos hlength]
        exact iff_of_false (fun hnone => nomatch hnone.1)
          fun hsize => hlong (hsize.1.mp hlength)
      · rw [if_neg hlength]
        simp [hlength, hlong]

end LookUps

/-- For an entry with pixels, the converter and the runtime make the same of a stored blob, and
both ways to store it render the same, exactly when the payload fits its declared format. -/
theorem decodersAgree_iff (inflate : Bytes → Option Bytes) (entry : Entry) (blob : Bytes)
    (hwidth : 0 < entry.width) (hheight : 0 < entry.height) :
    DecodersAgree inflate entry blob ↔ PayloadAgrees inflate entry blob := by
  have hcount : 0 < pixelCount entry :=
    Nat.mul_pos (UInt32.lt_iff_toNat_lt.mp hwidth) (UInt32.lt_iff_toNat_lt.mp hheight)
  have hsplit : DecodersAgree inflate entry blob ↔
      decodeBlob inflate entry blob = runtimeDecodeBlob inflate entry blob ∧
        ∀ rgba8, decodeBlob inflate entry blob = some rgba8 →
          runtimeDecodeBlob inflate (legacyEntry entry) blob = some rgba8 := by
    rw [← legacyRendersAsRgba_iff hcount]
    exact ⟨fun h => ⟨h.same, h.legacy⟩, fun h => ⟨h.1, fun _ => length_of_decodeBlob, h.2⟩⟩
  rw [hsplit, PayloadAgrees]
  by_cases hlarge : 2 ^ 63 ≤ pixelCount entry * 4
  · have hpython : decodeBlob inflate entry blob = none :=
      Option.eq_none_iff_forall_ne_some.mpr
        fun _ h => absurd (small_of_decodeBlob h) (not_lt.mpr hlarge)
    have hruntime : runtimeDecodeBlob inflate entry blob = none :=
      Option.eq_none_iff_forall_ne_some.mpr
        fun _ h => absurd (small_of_runtimeDecodeBlob h) (not_lt.mpr hlarge)
    rw [hpython, hruntime]
    exact iff_of_true ⟨rfl, fun _ hnone => nomatch hnone⟩ (Or.inl hlarge)
  · rw [or_iff_right hlarge]
    by_cases h : entry.format &&& glTexfmtGz = 0
    · rw [if_pos h]
      exact decodersAgree_uncompressed h hcount (not_le.mp hlarge)
    · rw [if_neg h]
      exact decodersAgree_compressed h hcount (not_le.mp hlarge)

def pixelEntry (format : UInt32) (textureFormat pixelType : UInt16) : Entry :=
  { width := 1, height := 1, format, textureFormat, pixelType }

def fiveBytes : Bytes :=
  [0x78, 0x9c, 0x63, 0x64, 0x62, 0x66, 0x61, 0x05, 0x00, 0x00, 0x28, 0x00, 0x10]

def inflateFiveBytes (source : Bytes) : Option Bytes :=
  if source = fiveBytes then some [1, 2, 3, 4, 5] else none

/-- The decoders agree on a pixel in sixteen bits. -/
theorem decodersAgree_pixel :
    DecodersAgree inflateFiveBytes (pixelEntry 0 glRgba glUnsignedShort5551) [0xff, 0x07] :=
  (decodersAgree_iff inflateFiveBytes (pixelEntry 0 glRgba glUnsignedShort5551) [0xff, 0x07]
    (by decide) (by decide)).mpr (Or.inr (by
      rw [if_pos (by decide)]
      intro hunknown
      cases hunknown))

/-- The decoders differ on a stream with a byte too many and on an unknown layout. A package that
stores the pixels of an entry without a texture format names another layout for them. -/
theorem not_decodersAgree :
    ¬ DecodersAgree inflateFiveBytes
        (pixelEntry (glTexfmtGz ||| glRgba8) glRgba glUnsignedByte) fiveBytes ∧
      ¬ DecodersAgree inflateFiveBytes (pixelEntry 1 1 1) [1, 2, 3, 4] ∧
      ¬ DecodersAgree inflateFiveBytes (pixelEntry glRgba8 1 1) [1, 2, 3, 4, 5] ∧
      ¬ DecodersAgree inflateFiveBytes (pixelEntry glRgba8 0 glUnsignedShort4444)
        [1, 2, 3, 4] := by
  refine ⟨fun h => absurd h.same (by decide), fun h => absurd h.same (by decide),
    fun h => absurd h.same (by decide), fun h => ?_⟩
  have hlegacy := (legacyRendersAsRgba_iff (by decide)).mp h.legacy [1, 2, 3, 4] (by decide)
  revert hlegacy
  decide

end ParallelN64.Conversion
