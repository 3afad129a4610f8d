import ParallelN64.Core.BitPoly
import ParallelN64.Si.Pif

/-!
# The checksum of a pak block

A controller answers for the 32 bytes that it moved to or from its pak with a byte computed from
them bit by bit. One more byte of zeros behind the block moves all of it through the register.
-/

namespace ParallelN64.Si

open ParallelN64.Core Polynomial

example : pakDataCrc (fun i => if i = 31 then 1 else 0) = 0x85 := by
  decide +kernel

def crcMasks : List UInt8 := [0x80, 0x40, 0x20, 0x10, 0x08, 0x04, 0x02, 0x01]

theorem and_mask_ne_zero (x : BitVec 8) {n : Nat} (hn : n < 8) :
    decide (x &&& (0x80#8 >>> n) ≠ 0#8) = x.getLsbD (7 - n) := by
  have hmask : 0x80#8 >>> n = BitVec.twoPow 8 (7 - n) := by
    revert n
    decide
  have hone : BitVec.twoPow 8 (7 - n) ≠ 0#8 := by
    revert n
    decide
  rw [hmask, BitVec.and_twoPow]
  cases x.getLsbD (7 - n)
  · simp
  · simpa using hone

theorem and_ne_zero_iff (x y : UInt8) : x &&& y ≠ 0 ↔ x.toBitVec &&& y.toBitVec ≠ 0#8 := by
  rw [ne_eq, ne_eq, ← UInt8.toBitVec_inj]
  rfl

theorem bitsPoly_masks (x : UInt8) :
    bitsPoly (crcMasks.map fun mask => decide (x &&& mask ≠ 0)) = wordPoly x.toBitVec := by
  have hbits : (crcMasks.map fun mask => decide (x &&& mask ≠ 0)) =
      (List.range 8).map fun n => x.toBitVec.getLsbD (7 - n) := by
    have hmasks : crcMasks = (List.range 8).map fun n => UInt8.ofBitVec (0x80#8 >>> n) := rfl
    rw [hmasks, List.map_map]
    apply List.map_congr_left
    intro n hn
    rw [← and_mask_ne_zero x.toBitVec (List.mem_range.mp hn)]
    exact decide_eq_decide.mpr (and_ne_zero_iff x _)
  rw [hbits, wordPoly]
  simp only [List.range_eq_range', List.range', List.map_cons, List.map_nil, bitsPoly,
    List.length_cons, List.length_nil, Finset.sum_range_succ, Finset.sum_range_zero]
  ring_nf

theorem toBitVec_crcBit (crc : UInt8) (bit : Bool) :
    (crcBit crc bit).toBitVec = crcStep 0x85#8 crc.toBitVec bit := by
  have htap : (crc &&& 0x80 ≠ 0) ↔ crc.toBitVec.msb = true := by
    rw [and_ne_zero_iff, BitVec.msb_eq_getLsbD_last,
      ← and_mask_ne_zero crc.toBitVec (Nat.zero_lt_succ 7), decide_eq_true_iff]
    rfl
  have hshift : crc.toBitVec.shiftConcat bit =
      crc.toBitVec <<< 1 ||| if bit then 1#8 else 0#8 := by
    ext k hk
    cases bit <;> cases k <;> simp [BitVec.getElem_shiftConcat]
  rw [crcBit, crcStep, hshift]
  simp only [htap]
  cases bit <;> cases crc.toBitVec.msb <;> rfl

theorem wordPoly_crcByte (crc byte : UInt8) :
    wordPoly (crcByte crc byte).toBitVec =
      (wordPoly crc.toBitVec * X ^ 8 + wordPoly byte.toBitVec) %ₘ tapPoly 0x85#8 := by
  have hturns (bits : List Bool) (crc : UInt8) :
      (bits.foldl crcBit crc).toBitVec = bits.foldl (crcStep 0x85#8) crc.toBitVec := by
    induction bits generalizing crc with
    | nil => rfl
    | cons bit bits ih => rw [List.foldl_cons, List.foldl_cons, ih, toBitVec_crcBit]
  have hbyte : crcByte crc byte =
      (crcMasks.map fun mask => decide (byte &&& mask ≠ 0)).foldl crcBit crc := by
    rw [List.foldl_map]
    rfl
  rw [hbyte, hturns, wordPoly_foldl_crcStep _ (by decide), bitsPoly_masks, List.length_map]
  rfl

theorem wordPoly_foldl_crcByte (data : Nat → UInt8) (n : Nat) :
    wordPoly ((List.range n).foldl (fun crc k => crcByte crc (data k)) 0).toBitVec =
      messagePoly (fun i => (data i).toBitVec) n %ₘ tapPoly 0x85#8 := by
  induction n with
  | zero => simp
  | succ n ih =>
    rw [List.range_succ, List.foldl_append, List.foldl_cons, List.foldl_nil, wordPoly_crcByte, ih,
      modByMonic_mul_add (tapPoly_monic _), messagePoly_succ]

theorem tapPoly_pak : tapPoly 0x85#8 = X ^ 8 + X ^ 7 + X ^ 2 + 1 := by
  have hword : wordPoly 0x85#8 = X ^ 7 + X ^ 2 + 1 := by
    simp only [wordPoly, Finset.sum_range_succ, Finset.sum_range_zero]
    simp
    ring
  rw [tapPoly, hword]
  ring

/-- The checksum of a block is its remainder: the block as a polynomial, its first bit with the
highest power, times the eighth power of the indeterminate. -/
theorem pakDataCrc_eq_remainder (data : Nat → UInt8) :
    wordPoly (pakDataCrc data).toBitVec =
      (messagePoly (fun i => (data i).toBitVec) pakChunkSize * X ^ 8) %ₘ
        (X ^ 8 + X ^ 7 + X ^ 2 + 1) := by
  rw [pakDataCrc, wordPoly_crcByte, wordPoly_foldl_crcByte,
    modByMonic_mul_add (tapPoly_monic _), tapPoly_pak, UInt8.toBitVec_zero, wordPoly_zero,
    add_zero]

end ParallelN64.Si
