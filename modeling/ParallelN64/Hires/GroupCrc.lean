import Mathlib.Algebra.BigOperators.Group.List.Basic
import Mathlib.Algebra.Group.Action.Defs
import Mathlib.Algebra.Order.Ring.Nat
import Mathlib.Tactic.Ring
import ParallelN64.Hires.RiceCrc

/-!
# The checksum of palette groups

A texture of 16-bit texels can be drawn through a table of palettes: the upper bits of a texel
choose a group of four entries. The groups of all texels are packed, row by row, and the packed
bytes are hashed as a texture of their own. The checksum masks its addresses by the number of
packed bytes, which need not be a power of two.
-/

namespace ParallelN64.Hires

/-- First entry of the group of a texel. -/
def groupWord (rdram : List UInt8) (srcBaseAddr rowStrideBytes : UInt32) (y x : Nat) : UInt16 :=
  let texelAddr :=
    (rowAddr rdram.length srcBaseAddr rowStrideBytes y + UInt32.ofNat x * 2) &&&
      UInt32.ofNat (rdram.length - 1)
  let word : UInt16 :=
    (wrappedReadU8 rdram texelAddr).toUInt16 |||
      ((wrappedReadU8 rdram (texelAddr + 1)).toUInt16 <<< 8)
  ((word >>> 6).toUInt32 &&& ~~~3 &&& 0x3ff).toUInt16

/-- The groups of all texels, two bytes each, in row order. -/
def packedGroups (rdram : List UInt8) (srcBaseAddr keyWidthPixels keyHeightPixels
    rowStrideBytes : UInt32) : List UInt8 :=
  (List.range keyHeightPixels.toNat).flatMap fun y =>
    (List.range keyWidthPixels.toNat).flatMap fun x =>
      let word := groupWord rdram srcBaseAddr rowStrideBytes y x
      [(word &&& 0xff).toUInt8, (word >>> 8).toUInt8]

def computeHiresCi32TlutGroupTextureCrc (rdram : List UInt8) (srcBaseAddr keyWidthPixels
    keyHeightPixels rowStrideBytes : UInt32) : UInt32 :=
  if rdram.length = 0 ∨ keyWidthPixels = 0 ∨ keyHeightPixels = 0 then 0
  else
    riceCrc32Wrapped (packedGroups rdram srcBaseAddr keyWidthPixels keyHeightPixels rowStrideBytes)
      0 keyWidthPixels keyHeightPixels 2 (keyWidthPixels * 2)

/-- The packed bytes that the checksum reads, in its order. -/
def groupReads (rdram : List UInt8) (keyWidthPixels keyHeightPixels : UInt32) : List Nat :=
  if rdram.length = 0 ∨ keyWidthPixels = 0 ∨ keyHeightPixels = 0 then []
  else
    riceReads (keyWidthPixels.toNat * keyHeightPixels.toNat * 2) 0 keyWidthPixels keyHeightPixels 2
      (keyWidthPixels * 2)

/-- The checksum of a sequence of lines of bytes. -/
def riceCrc32 (bytes : List UInt8) (bytesPerLine height : Nat) : UInt32 :=
  if bytesPerLine < 4 then 0
  else
    hashLines (fun line x => word32 fun i => bytes.getD (line * bytesPerLine + x + i) 0)
      bytesPerLine height

/-- The checksum of the groups is the plain one of the packed bytes, and it reads each of them
once. -/
structure HashesEveryGroup (rdram : List UInt8) (srcBaseAddr keyWidthPixels keyHeightPixels
    rowStrideBytes : UInt32) : Prop where
  crc : computeHiresCi32TlutGroupTextureCrc rdram srcBaseAddr keyWidthPixels keyHeightPixels
      rowStrideBytes =
    riceCrc32 (packedGroups rdram srcBaseAddr keyWidthPixels keyHeightPixels rowStrideBytes)
      (keyWidthPixels.toNat * 2) keyHeightPixels.toNat
  reads : (groupReads rdram keyWidthPixels keyHeightPixels).Perm
    (List.range (keyWidthPixels.toNat * keyHeightPixels.toNat * 2))

theorem exists_two_pow_of_masked {size : Nat} (hpos : 0 < size)
    (h : ∀ p < size, ∃ addr : UInt32, maskedAddress size addr = p) :
    ∃ k ≤ 32, size = 2 ^ k := by
  have hsize : size ≤ 2 ^ 32 := by
    by_contra hlt
    obtain ⟨addr, haddr⟩ := h (2 ^ 32) (by omega)
    unfold maskedAddress at haddr
    have hword := (addr &&& UInt32.ofNat (size - 1)).toNat_lt
    omega
  have hk := Nat.log2_self_le hpos.ne'
  have hk' := @Nat.lt_log2_self size
  -- The mask keeps the address of ones below the highest bit of the size.
  obtain ⟨addr, haddr⟩ := h (2 ^ size.log2 - 1) (by have := Nat.two_pow_pos size.log2; omega)
  rw [maskedAddress_eq hsize] at haddr
  have hones : (size - 1) % 2 ^ size.log2 = 2 ^ size.log2 - 1 := by
    rw [← Nat.and_two_pow_sub_one_eq_mod, ← haddr, Nat.and_comm, Nat.and_assoc, Nat.and_self]
  have hexact : size = 2 ^ size.log2 := by
    have hdouble : 2 ^ (size.log2 + 1) = 2 * 2 ^ size.log2 := by rw [pow_succ, Nat.mul_comm]
    by_contra hne
    have hsplit := Nat.mod_add_div (size - 1) (2 ^ size.log2)
    have hquot : (size - 1) / 2 ^ size.log2 = 1 := by
      refine Nat.div_eq_of_lt_le ?_ ?_ <;> omega
    rw [hones, hquot] at hsplit
    omega
  refine ⟨size.log2, ?_, hexact⟩
  rw [hexact] at hsize
  exact (Nat.pow_le_pow_iff_right (by decide)).mp hsize

theorem flatMap_range_blocks (blocks length : Nat) :
    ((List.range blocks).flatMap fun b => (List.range length).map fun i => b * length + i) =
      List.range (blocks * length) := by
  induction blocks with
  | zero => rw [Nat.zero_mul]; rfl
  | succ blocks ih =>
    rw [List.range_succ, List.flatMap_append, ih, List.flatMap_singleton, Nat.succ_mul,
      List.range_add]

theorem lineOffsets_perm {bytesPerLine : Nat} (h : 4 ∣ bytesPerLine) :
    ((lineOffsets bytesPerLine).flatMap fun x => (List.range 4).map fun i => x + i).Perm
      (List.range bytesPerLine) := by
  obtain ⟨words, rfl⟩ := h
  have hreverse : lineOffsets (4 * words) = ((List.range words).map fun i => i * 4).reverse := by
    unfold lineOffsets
    rw [Nat.mul_div_cancel_left _ (by decide)]
    refine List.ext_getElem (by simp) fun i hi hi' => ?_
    simp only [List.length_map, List.length_range] at hi
    simp only [List.getElem_map, List.getElem_range, List.getElem_reverse, List.length_map,
      List.length_range]
    omega
  rw [hreverse]
  refine ((List.reverse_perm _).flatMap_right _).trans ?_
  rw [List.flatMap_map, flatMap_range_blocks, Nat.mul_comm]

theorem length_riceReads_le (memorySize : Nat) (baseAddr width height rowStride : UInt32) :
    (riceReads memorySize baseAddr width height 2 rowStride).length ≤
      height.toNat * ((bytesPerLine width 2).toNat / 4 * 4) := by
  unfold riceReads
  split_ifs
  · exact Nat.zero_le _
  · exact Nat.zero_le _
  · simp only [List.length_flatMap, List.length_map, List.length_range, lineOffsets,
      List.map_const', List.sum_replicate, smul_eq_mul]
    refine Nat.mul_le_mul_right _ ?_
    unfold signedHeight
    split_ifs
    · exact le_rfl
    · exact Nat.zero_le _

theorem packed_address {width height : UInt32} {k : Nat} (hk : k ≤ 32)
    (hsize : width.toNat * height.toNat * 2 = 2 ^ k) {line x i : Nat}
    (hline : line < height.toNat) (hx : x + 4 ≤ width.toNat * 2) (hi : i < 4) :
    maskedAddress (2 ^ k) (rowAddr (2 ^ k) 0 (width * 2) line + UInt32.ofNat x + UInt32.ofNat i) =
      line * (width.toNat * 2) + x + i := by
  have hle : (2 : Nat) ^ k ≤ 2 ^ 32 := Nat.pow_le_pow_right (by decide) hk
  have hrow : (line + 1) * (width.toNat * 2) ≤ 2 ^ k := by
    calc (line + 1) * (width.toNat * 2)
        ≤ height.toNat * (width.toNat * 2) := Nat.mul_le_mul_right _ hline
      _ = width.toNat * height.toNat * 2 := by ring
      _ = 2 ^ k := hsize
  rw [Nat.add_mul, Nat.one_mul] at hrow
  have hstart : (rowAddr (2 ^ k) 0 (width * 2) line).toNat = line * (width.toNat * 2) := by
    have haddr : ((0 : UInt32) + UInt32.ofNat line * (width * 2)).toNat =
        line * (width.toNat * 2) := by
      rw [UInt32.zero_add, UInt32.toNat_mul, UInt32.toNat_mul, UInt32.toNat_ofNat']
      have hline' : line < 2 ^ 32 := hline.trans height.toNat_lt
      change line % 2 ^ 32 * (width.toNat * 2 % 2 ^ 32) % 2 ^ 32 = _
      rw [Nat.mod_eq_of_lt hline', Nat.mul_mod_mod, Nat.mod_eq_of_lt (by omega)]
    change maskedAddress (2 ^ k) _ = _
    rw [maskedAddress_of_lt hk (by rw [haddr]; omega), haddr]
  have hsum : (rowAddr (2 ^ k) 0 (width * 2) line + UInt32.ofNat x + UInt32.ofNat i).toNat =
      line * (width.toNat * 2) + x + i := by
    rw [UInt32.toNat_add, UInt32.toNat_add, hstart, UInt32.toNat_ofNat', UInt32.toNat_ofNat']
    omega
  rw [maskedAddress_of_lt hk (by rw [hsum]; omega), hsum]

theorem length_packedGroups (rdram : List UInt8) (srcBaseAddr width height
    rowStrideBytes : UInt32) :
    (packedGroups rdram srcBaseAddr width height rowStrideBytes).length =
      width.toNat * height.toNat * 2 := by
  simp only [packedGroups, List.length_flatMap, List.length_cons, List.length_nil, List.map_const',
    List.length_range, List.sum_replicate, smul_eq_mul]
  ring

/-- Regions of which every group is hashed: empty ones, and those of an even width below 2 ^ 30
whose packed bytes are a power of two that 32 bits can address. -/
def Packs (rdram : List UInt8) (width height : UInt32) : Prop :=
  width = 0 ∨ height = 0 ∨
    (rdram.length ≠ 0 ∧ Even width.toNat ∧ width.toNat < 2 ^ 30 ∧
      ∃ k ≤ 32, width.toNat * height.toNat * 2 = 2 ^ k)

theorem hashesEveryGroup_of_two_pow {rdram : List UInt8} {srcBaseAddr width height
    rowStrideBytes : UInt32} (hrdram : rdram.length ≠ 0) (hwidth : width ≠ 0)
    (hheight : height ≠ 0) (heven : Even width.toNat) (hlt : width.toNat < 2 ^ 30) {k : Nat}
    (hk : k ≤ 32) (hsize : width.toNat * height.toNat * 2 = 2 ^ k) :
    HashesEveryGroup rdram srcBaseAddr width height rowStrideBytes := by
  have hwidth' : 2 ≤ width.toNat := by
    have hne : width.toNat ≠ 0 := fun h => hwidth (UInt32.toNat_inj.mp h)
    obtain ⟨half, hhalf⟩ := heven
    omega
  have hheight' : 1 ≤ height.toNat :=
    Nat.pos_of_ne_zero fun h => hheight (UInt32.toNat_inj.mp h)
  have hbytes : (bytesPerLine width 2).toNat = width.toNat * 2 := by
    rw [bytesPerLine_two, Nat.mod_eq_of_lt hlt]
  have hbytes' : ¬ bytesPerLine width 2 < 4 := by
    rw [UInt32.lt_iff_toNat_lt, hbytes]
    change ¬ width.toNat * 2 < 4
    omega
  have hlines : signedHeight height = height.toNat := by
    have hle : (2 : Nat) ^ k ≤ 2 ^ 32 := Nat.pow_le_pow_right (by decide) hk
    have htwo : 2 * height.toNat ≤ width.toNat * height.toNat :=
      Nat.mul_le_mul_right _ hwidth'
    unfold signedHeight
    rw [if_pos (by omega)]
  have hlength : (packedGroups rdram srcBaseAddr width height rowStrideBytes).length = 2 ^ k := by
    rw [length_packedGroups, hsize]
  have hpos : (2 : Nat) ^ k ≠ 0 := (Nat.two_pow_pos k).ne'
  refine ⟨?_, ?_⟩
  · unfold computeHiresCi32TlutGroupTextureCrc riceCrc32Wrapped riceCrc32
    rw [if_neg (by simp [hrdram, hwidth, hheight]), hlength,
      if_neg (by simp [hwidth, hheight]), if_neg hbytes', if_neg (by omega), hbytes, hlines]
    refine hashLines_congr fun line hline x hx => word32_congr fun i hi => ?_
    unfold wrappedReadU8
    rw [hlength, packed_address hk hsize hline (mem_lineOffsets hx) hi]
  · unfold groupReads riceReads
    rw [if_neg (by simp [hrdram, hwidth, hheight]), hsize, if_neg (by simp [hwidth, hheight]),
      if_neg hbytes', hbytes, hlines]
    have hdvd : 4 ∣ width.toNat * 2 := by
      obtain ⟨half, hhalf⟩ := heven
      exact ⟨half, by omega⟩
    have hblocks := flatMap_range_blocks height.toNat (width.toNat * 2)
    rw [show height.toNat * (width.toNat * 2) = 2 ^ k by rw [← hsize]; ring] at hblocks
    rw [← hblocks]
    refine List.Perm.flatMap_left _ fun line hline => ?_
    have hline' := List.mem_range.mp hline
    have haddresses : ((lineOffsets (width.toNat * 2)).flatMap fun x => (List.range 4).map fun i =>
          maskedAddress (2 ^ k)
            (rowAddr (2 ^ k) 0 (width * 2) line + UInt32.ofNat x + UInt32.ofNat i)) =
        ((lineOffsets (width.toNat * 2)).flatMap fun x => (List.range 4).map fun i => x + i).map
          fun i => line * (width.toNat * 2) + i := by
      rw [List.map_flatMap]
      refine List.flatMap_congr fun x hx => ?_
      rw [List.map_map]
      refine List.map_congr_left fun i hi => ?_
      rw [packed_address hk hsize hline' (mem_lineOffsets hx) (List.mem_range.mp hi),
        Function.comp_apply, Nat.add_assoc]
    rw [haddresses]
    exact (lineOffsets_perm hdvd).map _

/-- The checksum hashes every group of a region exactly when it packs. -/
theorem hashesEveryGroup_iff (rdram : List UInt8) (srcBaseAddr width height
    rowStrideBytes : UInt32) :
    HashesEveryGroup rdram srcBaseAddr width height rowStrideBytes ↔
      Packs rdram width height := by
  constructor
  · rintro ⟨-, hreads⟩
    by_cases hwidth : width = 0
    · exact Or.inl hwidth
    by_cases hheight : height = 0
    · exact Or.inr (Or.inl hheight)
    refine Or.inr (Or.inr ?_)
    have hwidth' : 0 < width.toNat := Nat.pos_of_ne_zero fun h => hwidth (UInt32.toNat_inj.mp h)
    have hheight' : 0 < height.toNat :=
      Nat.pos_of_ne_zero fun h => hheight (UInt32.toNat_inj.mp h)
    have hpos : 0 < width.toNat * height.toNat * 2 :=
      Nat.mul_pos (Nat.mul_pos hwidth' hheight') (by decide)
    have hlength := hreads.length_eq
    rw [List.length_range] at hlength
    by_cases hrdram : rdram.length = 0
    · rw [groupReads, if_pos (Or.inl hrdram), List.length_nil] at hlength
      omega
    rw [groupReads, if_neg (by simp [hrdram, hwidth, hheight])] at hreads hlength
    -- No more positions are read than the lines have bytes in whole words.
    have hle := length_riceReads_le (width.toNat * height.toNat * 2) 0 width height (width * 2)
    rw [hlength, bytesPerLine_two] at hle
    have hwhole : width.toNat * 2 ≤ width.toNat % 2 ^ 30 * 2 / 4 * 4 := by
      refine Nat.le_of_mul_le_mul_left ?_ hheight'
      calc height.toNat * (width.toNat * 2) = width.toNat * height.toNat * 2 := by ring
        _ ≤ height.toNat * (width.toNat % 2 ^ 30 * 2 / 4 * 4) := hle
    refine ⟨hrdram, ?_, by omega, ?_⟩
    · rw [Nat.even_iff]
      omega
    · refine exists_two_pow_of_masked hpos fun p hp => ?_
      have hmem := hreads.mem_iff.mpr (List.mem_range.mpr hp)
      unfold riceReads at hmem
      split_ifs at hmem
      · cases hmem
      · cases hmem
      · obtain ⟨line, -, hmem⟩ := List.mem_flatMap.mp hmem
        obtain ⟨x, -, hmem⟩ := List.mem_flatMap.mp hmem
        obtain ⟨i, -, haddr⟩ := List.mem_map.mp hmem
        exact ⟨_, haddr⟩
  · intro h
    by_cases hwidth : width = 0
    · refine ⟨?_, ?_⟩
      · rw [computeHiresCi32TlutGroupTextureCrc, if_pos (Or.inr (Or.inl hwidth)), hwidth]
        rfl
      · rw [groupReads, if_pos (Or.inr (Or.inl hwidth)), hwidth]
        simp
    by_cases hheight : height = 0
    · refine ⟨?_, ?_⟩
      · rw [computeHiresCi32TlutGroupTextureCrc, if_pos (Or.inr (Or.inr hheight)), hheight]
        unfold riceCrc32
        split_ifs
        · rfl
        · rfl
      · rw [groupReads, if_pos (Or.inr (Or.inr hheight)), hheight]
        simp
    rcases h with h | h | ⟨hrdram, heven, hlt, k, hk, hsize⟩
    · exact absurd h hwidth
    · exact absurd h hheight
    · exact hashesEveryGroup_of_two_pow hrdram hwidth hheight heven hlt hk hsize

def sixTexels : List UInt8 := [0, 0x10, 0, 0x30, 0, 0x50, 0, 0x70, 0, 0x90, 0, 0xb0, 0, 0, 0, 0]

/-- Six texels are twelve packed bytes: the words at 0 and 4 are both read at 0. -/
theorem sixTexels_not_hashesEveryGroup : ¬ HashesEveryGroup sixTexels 0 6 1 12 :=
  fun h => absurd h.crc (by decide)

end ParallelN64.Hires
