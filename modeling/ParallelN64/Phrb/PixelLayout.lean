import ParallelN64.Phrb.Decode

/-!
# The layouts of stored pixels

A texture format and a pixel type name one of six layouts, each with a number of bytes for a pixel
and a way to expand a pixel to red, green, blue and alpha bytes.
-/

namespace ParallelN64.Phrb

open ParallelN64.Core Replacement

/-- The known layouts of a pixel. -/
inductive PixelLayout where
  | rgba8
  | rgb8
  | rgb565
  | rgba5551
  | rgba4444
  | luminance8
  deriving DecidableEq, Repr

/-- The layout that a texture format and a pixel type name. -/
def layoutOf (textureFormat pixelType : UInt16) : Option PixelLayout :=
  if textureFormat = glRgba ∧ pixelType = glUnsignedByte then some .rgba8
  else if textureFormat = glRgb ∧ pixelType = glUnsignedByte then some .rgb8
  else if textureFormat = glRgb ∧ pixelType = glUnsignedShort565 then some .rgb565
  else if textureFormat = glRgba ∧ pixelType = glUnsignedShort5551 then some .rgba5551
  else if textureFormat = glRgba ∧ pixelType = glUnsignedShort4444 then some .rgba4444
  else if textureFormat = glLuminance ∧ pixelType = glUnsignedByte then some .luminance8
  else none

def layout (entry : Entry) : Option PixelLayout := layoutOf entry.textureFormat entry.pixelType

def pixelCount (entry : Entry) : Nat := entry.width.toNat * entry.height.toNat

namespace PixelLayout

/-- The bytes of a stored pixel. -/
def bpp : PixelLayout → Nat
  | rgba8 => 4
  | rgb8 => 3
  | rgb565 | rgba5551 | rgba4444 => 2
  | luminance8 => 1

/-- Expand one pixel. -/
def readPixel (pixelData : Bytes) (i : Nat) : PixelLayout → Bytes
  | rgba8 => [pixelData.getD (4 * i) 0, pixelData.getD (4 * i + 1) 0, pixelData.getD (4 * i + 2) 0,
      pixelData.getD (4 * i + 3) 0]
  | rgb8 => [pixelData.getD (3 * i) 0, pixelData.getD (3 * i + 1) 0, pixelData.getD (3 * i + 2) 0,
      255]
  | rgb565 =>
    let v := pixel16 pixelData i
    [expand5To8 (v >>> 11 &&& 0x1f), expand6To8 (v >>> 5 &&& 0x3f), expand5To8 (v &&& 0x1f), 255]
  | rgba5551 =>
    let v := pixel16 pixelData i
    [expand5To8 (v >>> 11 &&& 0x1f), expand5To8 (v >>> 6 &&& 0x1f), expand5To8 (v >>> 1 &&& 0x1f),
      if v &&& 1 != 0 then 255 else 0]
  | rgba4444 =>
    let v := pixel16 pixelData i
    [expand4To8 (v >>> 12 &&& 0x0f), expand4To8 (v >>> 8 &&& 0x0f), expand4To8 (v >>> 4 &&& 0x0f),
      expand4To8 (v &&& 0x0f)]
  | luminance8 =>
    let l := pixelData.getD i 0
    [l, l, l, 255]

def readPixels (count : Nat) (pixelData : Bytes) (l : PixelLayout) : Bytes :=
  (List.range count).flatMap fun i => l.readPixel pixelData i

theorem length_readPixels (count : Nat) (pixelData : Bytes) (l : PixelLayout) :
    (l.readPixels count pixelData).length = count * 4 := by
  apply length_flatMap_range_four
  intro i
  cases l <;> rfl

theorem bpp_pos (l : PixelLayout) : 0 < l.bpp := by
  cases l <;> decide

theorem bpp_le (l : PixelLayout) : l.bpp ≤ 4 := by
  cases l <;> decide

theorem take_four {bytes : Bytes} (h : 4 ≤ bytes.length) :
    bytes.take 4 = [bytes.getD 0 0, bytes.getD 1 0, bytes.getD 2 0, bytes.getD 3 0] :=
  match bytes, h with
  | _ :: _ :: _ :: _ :: _, _ => rfl

theorem readPixels_rgba8 {count : Nat} {pixelData : Bytes} (h : count * 4 ≤ pixelData.length) :
    rgba8.readPixels count pixelData = pixelData.take (count * 4) := by
  induction count with
  | zero => simp [readPixels]
  | succ count ih =>
    have hget : ∀ k, pixelData.getD (4 * count + k) 0 = (pixelData.drop (count * 4)).getD k 0 := by
      intro k
      rw [List.getD_eq_getElem?_getD, List.getD_eq_getElem?_getD, List.getElem?_drop, Nat.mul_comm]
    have hlast : rgba8.readPixel pixelData count = (pixelData.drop (count * 4)).take 4 := by
      rw [take_four (by rw [List.length_drop]; omega), ← hget, ← hget, ← hget, ← hget]
      rfl
    have hfirst : rgba8.readPixels count pixelData = pixelData.take (count * 4) := ih (by omega)
    rw [readPixels, List.range_succ, List.flatMap_append, List.flatMap_singleton, hlast,
      Nat.succ_mul, List.take_add, ← hfirst]
    rfl

end PixelLayout

theorem decodePixelsRgba8_eq (entry : Entry) (pixelData : Bytes) :
    decodePixelsRgba8 entry pixelData =
      if pixelCount entry = 0 ∨ 2 ^ 63 ≤ pixelCount entry * 4 then none
      else match layout entry with
        | some l =>
          if pixelData.length < pixelCount entry * l.bpp then none
          else some (l.readPixels (pixelCount entry) pixelData)
        | none => if pixelData.length = pixelCount entry * 4 then some pixelData else none := by
  unfold decodePixelsRgba8 layout layoutOf pixelCount
  dsimp only
  generalize entry.width.toNat * entry.height.toNat = count
  by_cases hcount : count = 0 ∨ 2 ^ 63 ≤ count * 4
  · rw [if_pos hcount]
    by_cases hlarge : count = 0 ∨ count > (2 ^ 64 - 1) / 4
    · rw [if_pos hlarge]
    · rw [if_neg hlarge, if_pos (by omega)]
  · rw [if_neg hcount, if_neg (by omega), if_neg (by omega)]
    simp only [Bool.and_eq_true, beq_iff_eq]
    by_cases hrgba : entry.textureFormat = glRgba ∧ entry.pixelType = glUnsignedByte
    · rw [if_pos hrgba, if_pos hrgba]
      by_cases hshort : pixelData.length < count * 4
      · rw [if_pos hshort]
        exact (if_pos hshort).symm
      · rw [if_neg hshort, ← PixelLayout.readPixels_rgba8 (not_lt.mp hshort)]
        exact (if_neg hshort).symm
    rw [if_neg hrgba, if_neg hrgba]
    by_cases hrgb : entry.textureFormat = glRgb ∧ entry.pixelType = glUnsignedByte
    · rw [if_pos hrgb, if_pos hrgb]
      rfl
    rw [if_neg hrgb, if_neg hrgb]
    by_cases h565 : entry.textureFormat = glRgb ∧ entry.pixelType = glUnsignedShort565
    · rw [if_pos h565, if_pos h565]
      rfl
    rw [if_neg h565, if_neg h565]
    by_cases h5551 : entry.textureFormat = glRgba ∧ entry.pixelType = glUnsignedShort5551
    · rw [if_pos h5551, if_pos h5551]
      rfl
    rw [if_neg h5551, if_neg h5551]
    by_cases h4444 : entry.textureFormat = glRgba ∧ entry.pixelType = glUnsignedShort4444
    · rw [if_pos h4444, if_pos h4444]
      rfl
    rw [if_neg h4444, if_neg h4444]
    by_cases hluminance : entry.textureFormat = glLuminance ∧ entry.pixelType = glUnsignedByte
    · rw [if_pos hluminance, if_pos hluminance]
      simp only [PixelLayout.bpp, Nat.mul_one]
      rfl
    · rw [if_neg hluminance, if_neg hluminance]

theorem format_ne_of_compressed {entry : Entry} (h : entry.format &&& glTexfmtGz ≠ 0) :
    entry.format ≠ glRgba8 ∧ entry.format ≠ glRgb8 := by
  constructor
  · intro hformat
    exact h (hformat ▸ by decide)
  · intro hformat
    exact h (hformat ▸ by decide)

theorem expectedDecodedSize_eq {entry : Entry} (hcompressed : entry.format &&& glTexfmtGz ≠ 0)
    (hcount : pixelCount entry * 4 < 2 ^ 63) :
    (expectedDecodedSize entry).toNat =
      match layout entry with
      | some l => if 2 ^ 32 ≤ pixelCount entry * l.bpp then 0 else pixelCount entry * l.bpp
      | none => 0 := by
  obtain ⟨hrgba8, hrgb8⟩ := format_ne_of_compressed hcompressed
  have hshort16 : entry.textureFormat = glRgba ∧ (entry.pixelType = glUnsignedShort4444 ∨
        entry.pixelType = glUnsignedShort5551) ↔
      entry.textureFormat = glRgba ∧ entry.pixelType = glUnsignedShort4444 ∨
        entry.textureFormat = glRgba ∧ entry.pixelType = glUnsignedShort5551 := and_or_left
  have hpixels : (entry.width.toUInt64 * entry.height.toUInt64).toNat = pixelCount entry := by
    rw [UInt64.toNat_mul, UInt32.toNat_toUInt64, UInt32.toNat_toUInt64]
    exact Nat.mod_eq_of_lt (lt_of_le_of_lt (Nat.le_mul_of_pos_right _ (by decide))
      (lt_trans hcount (by decide)))
  have hbytes : ∀ l : PixelLayout,
      (if (UInt64.ofNat l.bpp == 0 || decide (entry.width.toUInt64 * entry.height.toUInt64 *
          UInt64.ofNat l.bpp > 0xffffffff)) = true then (0 : UInt32)
        else (entry.width.toUInt64 * entry.height.toUInt64 * UInt64.ofNat l.bpp).toUInt32).toNat =
          if 2 ^ 32 ≤ pixelCount entry * l.bpp then 0 else pixelCount entry * l.bpp := by
    intro l
    have hbpp : (UInt64.ofNat l.bpp).toNat = l.bpp := by
      cases l <;> rfl
    have hmul : (entry.width.toUInt64 * entry.height.toUInt64 * UInt64.ofNat l.bpp).toNat =
        pixelCount entry * l.bpp := by
      rw [UInt64.toNat_mul, hpixels, hbpp]
      apply Nat.mod_eq_of_lt
      have hle := Nat.mul_le_mul_left (pixelCount entry) l.bpp_le
      omega
    have hzero : UInt64.ofNat l.bpp ≠ 0 := by
      cases l <;> decide
    have hlarge : entry.width.toUInt64 * entry.height.toUInt64 * UInt64.ofNat l.bpp > 0xffffffff ↔
        2 ^ 32 ≤ pixelCount entry * l.bpp := by
      rw [gt_iff_lt, UInt64.lt_iff_toNat_lt, hmul]
      exact Nat.lt_iff_add_one_le
    simp only [Bool.or_eq_true, beq_iff_eq, hzero, false_or, decide_eq_true_eq, hlarge]
    split
    next => rfl
    next hsmall =>
      rw [UInt64.toNat_toUInt32, hmul]
      exact Nat.mod_eq_of_lt (not_le.mp hsmall)
  have hknown : ∀ l, layout entry = some l → (expectedDecodedSize entry).toNat =
      if 2 ^ 32 ≤ pixelCount entry * l.bpp then 0 else pixelCount entry * l.bpp := by
    intro l hl
    rw [← hbytes l]
    clear hbytes hpixels
    unfold expectedDecodedSize
    unfold layout layoutOf at hl
    simp only [Bool.and_eq_true, Bool.or_eq_true, beq_iff_eq]
    split_ifs at hl with hrgba hrgb h565 h5551 h4444 hluminance
    all_goals obtain rfl := Option.some.inj hl
    · rw [if_pos hrgba]
      rfl
    · rw [if_neg hrgba, if_pos hrgb]
      rfl
    · rw [if_neg hrgba, if_neg hrgb, if_pos h565]
      rfl
    · rw [if_neg hrgba, if_neg hrgb, if_neg h565,
        if_pos (hshort16.mpr (Or.inr h5551))]
      rfl
    · rw [if_neg hrgba, if_neg hrgb, if_neg h565,
        if_pos (hshort16.mpr (Or.inl h4444))]
      rfl
    · rw [if_neg hrgba, if_neg hrgb, if_neg h565,
        if_neg (mt hshort16.mp (not_or.mpr ⟨h4444, h5551⟩)), if_pos hluminance]
      rfl
  cases hl : layout entry with
  | some l => exact hknown l hl
  | none =>
    unfold expectedDecodedSize
    unfold layout layoutOf at hl
    simp only [Bool.and_eq_true, Bool.or_eq_true, beq_iff_eq]
    split_ifs at hl with hrgba hrgb h565 h5551 h4444 hluminance
    rw [if_neg hrgba, if_neg hrgb, if_neg h565,
      if_neg (mt hshort16.mp (not_or.mpr ⟨h4444, h5551⟩)), if_neg hluminance, if_neg hrgba8,
      if_neg hrgb8]
    rfl

end ParallelN64.Phrb
