import ParallelN64.Dd.Drive

/-!
# Sectors of the disk image

Where the sectors of a block lie, and what the two sector loops and the steps of the buffer
manager do to the image and to the sector buffer. In write mode the sector before the
current one is stored, in read mode the current one is loaded.
-/

namespace ParallelN64.Dd

open ParallelN64.Core R4300 ParallelN64.Pi

def secBufByte (m : PiMachine) (i : Nat) : UInt8 := m.buffers.bytes ⟨.secBuf, i ^^^ 3⟩

def diskByte (m : PiMachine) (address : Nat) : UInt8 := m.buffers.bytes ⟨.disk, address⟩

def secSize (dd : DdController) : Nat := ddZoneSecSize dd.zone

def sectorStart (dd : DdController) (block : Fin 2) (sector : Nat) : Nat :=
  dd.trackOffset.toNat + (block.val * sectorsPerBlock + sector) * secSize dd

def TrackInside (dd : DdController) : Prop :=
  dd.trackOffset.toNat + blocksPerTrack * sectorsPerBlock * secSize dd ≤ diskSize

theorem sectorStart_succ (dd : DdController) (block : Fin 2) (sector : Nat) :
    sectorStart dd block (sector + 1) = sectorStart dd block sector + secSize dd := by
  rw [sectorStart, sectorStart, ← Nat.add_assoc, Nat.add_mul, Nat.one_mul, Nat.add_assoc]

variable {dd : DdController} {block : Fin 2} {sector : Nat}

theorem sectorStart_le {sector' : Nat} (h : sector ≤ sector') :
    sectorStart dd block sector ≤ sectorStart dd block sector' :=
  Nat.add_le_add_left (Nat.mul_le_mul_right _ (Nat.add_le_add_left h _)) _

theorem sectorStart_add_le {sector' : Nat} (h : sector < sector') :
    sectorStart dd block sector + secSize dd ≤ sectorStart dd block sector' := by
  rw [← sectorStart_succ]
  exact sectorStart_le h

theorem sectorStart_le_diskSize (h : TrackInside dd) (hsector : sector ≤ 85) :
    sectorStart dd block sector ≤ diskSize := by
  refine Nat.le_trans (Nat.add_le_add_left (Nat.mul_le_mul_right _ ?_) _) h
  have hblock := block.isLt
  rw [sectorsPerBlock, blocksPerTrack]
  omega

theorem secSize_le (dd : DdController) : secSize dd ≤ 232 := by
  have h : ∀ zone, ddZoneSecSize zone ≤ 232 := by decide
  exact h dd.zone

theorem sectorOf_shift (block : Fin 2) (h : sector < 90) :
    sectorOf (BitVec.ofNat 32 (sector + 0x5A * block.val) <<< 16) = BitVec.ofNat 32 sector := by
  have hall : ∀ (block : Fin 2) (sector : Fin 90),
      sectorOf (BitVec.ofNat 32 (sector.val + 0x5A * block.val) <<< 16) =
        BitVec.ofNat 32 sector.val := by
    decide +kernel
  exact hall block ⟨sector, h⟩

theorem blockOf_shift (block : Fin 2) (h : sector < 90) :
    (if 0x5A#32 ≤ (BitVec.ofNat 32 (sector + 0x5A * block.val) <<< 16) >>> 16 then (1 : Fin 2)
      else 0) = block := by
  have hall : ∀ (block : Fin 2) (sector : Fin 90),
      (if 0x5A#32 ≤ (BitVec.ofNat 32 (sector.val + 0x5A * block.val) <<< 16) >>> 16 then
        (1 : Fin 2) else 0) = block := by
    decide +kernel
  exact hall block ⟨sector, h⟩

theorem toNat_sectorOffset (h : TrackInside dd) (hsector : sector ≤ 85) :
    (sectorOffset dd (BitVec.ofNat 32 sector)).toNat = sectorStart dd dd.curBlock sector := by
  have hle : sectorStart dd dd.curBlock sector ≤ diskSize := sectorStart_le_diskSize h hsector
  have hsum : sectorOffset dd (BitVec.ofNat 32 sector) =
      BitVec.ofNat 32 (sectorStart dd dd.curBlock sector) := by
    rw [sectorOffset, sectorStart, secSize, Nat.add_mul, ← Nat.add_assoc, BitVec.ofNat_add,
      BitVec.ofNat_add, BitVec.ofNat_toNat, BitVec.setWidth_eq, ← BitVec.ofNat_mul]
  rw [hsum, BitVec.toNat_ofNat]
  exact Nat.mod_eq_of_lt (Nat.lt_of_le_of_lt hle (by decide))

section SectorLoops

variable {dd : DdController} {offset : Word}

variable (b : Buffers Region)

theorem bytes_writeSector (hwrap : offset.toNat + secByte dd < 2 ^ 32)
    (hoffset : sectorOffset dd (sectorOf (dd.regs .curSector) - 1#32) = offset) (a : Nat) :
    (b.moves (writeSectorMoves dd)).bytes ⟨.disk, a⟩ =
      if offset.toNat ≤ a ∧ a ≤ offset.toNat + secByte dd then
        b.bytes ⟨.secBuf, (a - offset.toNat) ^^^ 3⟩
      else b.bytes ⟨.disk, a⟩ := by
  have hsum : ∀ i < secByte dd + 1, (offset + BitVec.ofNat 32 i).toNat = offset.toNat + i :=
    fun i hi => toNat_add_of_lt (by omega)
  rw [writeSectorMoves, hoffset]
  split_ifs with h
  · have hi : a - offset.toNat < secByte dd + 1 := by omega
    refine Buffers.bytes_loop_of_eq hi ?_ ?_ ?_
    · rw [hsum _ hi, Nat.add_sub_cancel' h.1]
    · intro j hj heq
      have hindex := congrArg Place.index (Option.some.inj heq)
      dsimp only at hindex
      rw [hsum j hj] at hindex
      omega
    · intro q hq j _ heq
      obtain rfl := Option.some.inj hq
      exact absurd (congrArg Place.region (Option.some.inj heq)) (fun hregion => Region.noConfusion hregion)
  · apply Buffers.bytes_loop_of_ne
    intro i hi heq
    have hindex := congrArg Place.index (Option.some.inj heq)
    dsimp only at hindex
    rw [hsum i hi] at hindex
    omega

theorem bytes_readSector (hwrap : offset.toNat + secByte dd < 2 ^ 32)
    (hoffset : sectorOffset dd (sectorOf (dd.regs .curSector)) = offset) {i : Nat}
    (hi : i ≤ secByte dd) :
    (b.moves (readSectorMoves dd)).bytes ⟨.secBuf, i ^^^ 3⟩ =
      b.bytes ⟨.disk, offset.toNat + i⟩ := by
  have hlast : (offset + BitVec.ofNat 32 i).toNat = offset.toNat + i :=
    toNat_add_of_lt (by omega)
  rw [readSectorMoves, hoffset, ← hlast]
  refine Buffers.bytes_loop_of_eq (Nat.lt_succ_of_le hi) rfl ?_ ?_
  · intro j _ heq
    exact xor_three_injective (congrArg Place.index (Option.some.inj heq))
  · intro q hq j _ heq
    obtain rfl := Option.some.inj hq
    exact absurd (congrArg Place.region (Option.some.inj heq)) (fun hregion => Region.noConfusion hregion)

theorem bytes_readSector_of_disk (a : Nat) :
    (b.moves (readSectorMoves dd)).bytes ⟨.disk, a⟩ = b.bytes ⟨.disk, a⟩ := by
  apply Buffers.bytes_loop_of_ne
  intro i _ heq
  exact Region.noConfusion (congrArg Place.region (Option.some.inj heq))

theorem bytes_writeSector_of_secBuf (a : Nat) :
    (b.moves (writeSectorMoves dd)).bytes ⟨.secBuf, a⟩ = b.bytes ⟨.secBuf, a⟩ := by
  apply Buffers.bytes_loop_of_ne
  intro i _ heq
  exact Region.noConfusion (congrArg Place.region (Option.some.inj heq))

end SectorLoops

end ParallelN64.Dd
