import Mathlib.Data.Nat.Bitwise
import Mathlib.Tactic.Ring
import ParallelN64.Dd.Answers
import ParallelN64.Pi.RomCopy

/-!
# Accesses of the drive

Zone and offset of a track put both of its blocks inside the disk image, so that the buffer
manager stays inside the image and the sector buffer while the sectors it moves are not
larger than those of the zone.
-/

namespace ParallelN64.Dd

open ParallelN64.Core R4300 ParallelN64.Pi

def curTrack (dd : DdController) : Nat := ((dd.regs .curTk &&& 0x0FFF0000#32) >>> 16).toNat

/-- A seek command has set direction, zone and offset. -/
structure Sought (dd : DdController) (read : Bool) : Prop where
  mode : dd.bmModeRead = read
  track : setZoneAndTrackOffset dd = dd

def zoneTracks : Fin 8 → Nat := ![158, 158, 149, 149, 149, 149, 149, 114]

theorem offset_lt_zoneTracks {track : Nat} (h : track ≤ 0x496) :
    (zoneAndOffset track).2 < zoneTracks (zoneAndOffset track).1 := by
  rw [zoneAndOffset]
  split_ifs
  all_goals dsimp [zoneTracks]
  all_goals omega

theorem zone_le_diskSize (zone : Fin 8) {head : Nat} (hhead : head = 0 ∨ head = 8) :
    ddStartOffset (Fin.ofNat 16 (zone.val + head)) +
      zoneTracks zone * (ddZoneSecSize (Fin.ofNat 16 (zone.val + head)) * sectorsPerBlock *
        blocksPerTrack) ≤ diskSize := by
  have hall : ∀ zone : Fin 8, ∀ head ∈ [0, 8],
      ddStartOffset (Fin.ofNat 16 (zone.val + head)) +
        zoneTracks zone * (ddZoneSecSize (Fin.ofNat 16 (zone.val + head)) * sectorsPerBlock *
          blocksPerTrack) ≤ diskSize := by
    decide
  exact hall zone head (by simpa using hhead)

theorem head_eq (curTk : Word) :
    ((curTk &&& 0x10000000#32) >>> 25).toNat = 0 ∨
      ((curTk &&& 0x10000000#32) >>> 25).toNat = 8 := by
  have hand : (curTk &&& 0x10000000#32).toNat = (curTk.toNat.testBit 28).toNat * 2 ^ 28 := by
    rw [BitVec.toNat_and]
    exact Nat.and_two_pow curTk.toNat 28
  rw [BitVec.toNat_ushiftRight, hand]
  cases curTk.toNat.testBit 28 with
  | false => exact .inl rfl
  | true => exact .inr rfl

theorem trackInside_of_sought {dd : DdController} {read : Bool} (h : Sought dd read)
    (htrack : curTrack dd ≤ 0x496) : TrackInside dd := by
  have hzone := zone_le_diskSize (zoneAndOffset (curTrack dd)).1 (head_eq (dd.regs .curTk))
  have hoffset := offset_lt_zoneTracks htrack
  have hroom : (zoneAndOffset (curTrack dd)).2 + 1 ≤ zoneTracks (zoneAndOffset (curTrack dd)).1 :=
    hoffset
  have hsize : secSize (setZoneAndTrackOffset dd) = ddZoneSecSize (Fin.ofNat 16
      ((zoneAndOffset (curTrack dd)).1.val +
        ((dd.regs .curTk &&& 0x10000000#32) >>> 25).toNat)) := rfl
  have hstart : (setZoneAndTrackOffset dd).trackOffset = BitVec.ofNat 32 (ddStartOffset
      (Fin.ofNat 16 ((zoneAndOffset (curTrack dd)).1.val +
        ((dd.regs .curTk &&& 0x10000000#32) >>> 25).toNat)) +
      (zoneAndOffset (curTrack dd)).2 * secSize (setZoneAndTrackOffset dd) * sectorsPerBlock *
        blocksPerTrack) := rfl
  rw [TrackInside, ← h.track, hstart, hsize, BitVec.toNat_ofNat]
  generalize (Fin.ofNat 16 ((zoneAndOffset (curTrack dd)).1.val +
    ((dd.regs .curTk &&& 0x10000000#32) >>> 25).toNat)) = zone at hzone
  calc _ ≤ ddStartOffset zone + (zoneAndOffset (curTrack dd)).2 * ddZoneSecSize zone *
        sectorsPerBlock * blocksPerTrack + blocksPerTrack * sectorsPerBlock * ddZoneSecSize zone :=
        Nat.add_le_add_right (Nat.mod_le ..) _
    _ = ddStartOffset zone + ((zoneAndOffset (curTrack dd)).2 + 1) *
        (ddZoneSecSize zone * sectorsPerBlock * blocksPerTrack) := by ring
    _ ≤ ddStartOffset zone + zoneTracks (zoneAndOffset (curTrack dd)).1 *
        (ddZoneSecSize zone * sectorsPerBlock * blocksPerTrack) :=
        Nat.add_le_add_left (Nat.mul_le_mul_right _ hroom) _
    _ ≤ diskSize := hzone

def StaysInside (cfg : PiConfig) (m m' : PiMachine) : Prop :=
  ∃ places, m'.buffers.used = m.buffers.used ++ places ∧
    ∀ p ∈ places, (p.region = .disk ∨ p.region = .secBuf) ∧ p.index < cfg.size p.region

variable {cfg : PiConfig} {m : PiMachine} {dd : DdController} {block : Fin 2} {sector : Nat}

theorem sectorByte_lt (hinside : TrackInside dd) (hfits : secByte dd < secSize dd) {offset : Word}
    (hoffset : offset.toNat = sectorStart dd dd.curBlock sector) (hsector : sector < 85) {i : Nat}
    (hi : i < secByte dd + 1) : (offset + BitVec.ofNat 32 i).toNat < diskSize := by
  have hend : sectorStart dd dd.curBlock (sector + 1) ≤ diskSize :=
    sectorStart_le_diskSize hinside hsector
  have hsize := secSize_le dd
  have hdisk : diskSize + 232 < 2 ^ 32 := by decide
  rw [sectorStart_succ] at hend
  rw [toNat_add_of_lt (by omega), hoffset]
  omega

theorem secBufIndex_lt (hfits : secByte dd < secSize dd) {i : Nat} (hi : i < secByte dd + 1) :
    i ^^^ 3 < 0x100 := by
  have hsize := secSize_le dd
  exact (xor_three_lt_iff rfl).mpr (by omega)

theorem places_writeSectorMoves (hinside : TrackInside dd) (hfits : secByte dd < secSize dd)
    (hsector : sector < 85) (hcur : sectorOf (dd.regs .curSector) = BitVec.ofNat 32 (sector + 1))
    {p : Place Region} (hp : p ∈ (writeSectorMoves dd).flatMap Move.places) :
    (p.region = .disk ∨ p.region = .secBuf) ∧ p.index < cfg.size p.region := by
  have hoffset : (sectorOffset dd (sectorOf (dd.regs .curSector) - 1#32)).toNat =
      sectorStart dd dd.curBlock sector := by
    rw [hcur, BitVec.ofNat_add, BitVec.add_sub_cancel]
    exact toNat_sectorOffset hinside (Nat.le_of_lt hsector)
  obtain ⟨move, hmove, hmem⟩ := List.mem_flatMap.mp hp
  obtain ⟨i, hi, rfl⟩ := mem_loop.mp hmove
  rcases List.mem_append.mp hmem with hsrc | hdst
  · obtain rfl := List.mem_singleton.mp hsrc
    exact ⟨.inr rfl, secBufIndex_lt hfits hi⟩
  · obtain rfl := List.mem_singleton.mp hdst
    exact ⟨.inl rfl, sectorByte_lt hinside hfits hoffset hsector hi⟩

theorem places_readSectorMoves (hinside : TrackInside dd) (hfits : secByte dd < secSize dd)
    (hsector : sector < 85) (hcur : sectorOf (dd.regs .curSector) = BitVec.ofNat 32 sector)
    {p : Place Region} (hp : p ∈ (readSectorMoves dd).flatMap Move.places) :
    (p.region = .disk ∨ p.region = .secBuf) ∧ p.index < cfg.size p.region := by
  have hoffset : (sectorOffset dd (sectorOf (dd.regs .curSector))).toNat =
      sectorStart dd dd.curBlock sector := by
    rw [hcur]
    exact toNat_sectorOffset hinside (Nat.le_of_lt hsector)
  obtain ⟨move, hmove, hmem⟩ := List.mem_flatMap.mp hp
  obtain ⟨i, hi, rfl⟩ := mem_loop.mp hmove
  rcases List.mem_append.mp hmem with hsrc | hdst
  · obtain rfl := List.mem_singleton.mp hsrc
    exact ⟨.inl rfl, sectorByte_lt hinside hfits hoffset hsector hi⟩
  · obtain rfl := List.mem_singleton.mp hdst
    exact ⟨.inr rfl, secBufIndex_lt hfits hi⟩

theorem updateBmWrite_moves (dd : DdController) (sector : Nat) :
    (updateBmWrite dd (BitVec.ofNat 32 sector)).1 = [] ∨
      ∃ block, (updateBmWrite dd (BitVec.ofNat 32 sector)).1 =
        writeSectorMoves { dd with curBlock := block } := by
  rw [updateBmWrite]
  split_ifs
  · exact .inr ⟨dd.curBlock, rfl⟩
  · exact .inr ⟨1 - dd.curBlock, rfl⟩
  · exact .inl rfl
  · exact .inl rfl

theorem updateBmRead_moves (dd : DdController) {sector : Nat} (hsector : sector < 2 ^ 32) :
    (updateBmRead dd (BitVec.ofNat 32 sector)).1 = [] ∨
      sector < 85 ∧ (updateBmRead dd (BitVec.ofNat 32 sector)).1 = readSectorMoves dd := by
  rw [updateBmRead]
  dsimp only
  split_ifs with _ hlt
  · exact .inl rfl
  · exact .inr ⟨(ofNat_lt_iff hsector (by decide)).mp hlt, rfl⟩
  all_goals exact .inl rfl

theorem staysInside_moves {ms : List (Move Region)} (h : ∀ p ∈ ms.flatMap Move.places,
    (p.region = .disk ∨ p.region = .secBuf) ∧ p.index < cfg.size p.region) (dd' : DdController) :
    StaysInside cfg m (withDrive (m.moves ms) dd') :=
  ⟨_, Buffers.used_moves .., h⟩

theorem staysInside_ddUpdateBm {read : Bool} (h : Running m.dd read block sector)
    (hsector : sector ≤ 85) (hfirst : read = false → 0 < sector) (hinside : TrackInside m.dd)
    (hfits : secByte m.dd < secSize m.dd) : StaysInside cfg m (ddUpdateBm m).1 := by
  have hcur : sectorOf (m.dd.regs .curSector) = BitVec.ofNat 32 sector := by
    rw [h.curSector, sectorOf_shift block (by omega)]
  rw [ddUpdateBm_of_running h (by omega)]
  apply staysInside_moves
  intro p hp
  cases read with
  | false =>
    obtain ⟨k, rfl⟩ : ∃ k, sector = k + 1 := ⟨sector - 1, by have := hfirst rfl; omega⟩
    rcases updateBmWrite_moves { m.dd with curBlock := block } (k + 1) with hms | ⟨block', hms⟩
    · rw [if_neg (by decide), hms] at hp
      exact absurd hp List.not_mem_nil
    · rw [if_neg (by decide), hms] at hp
      have hdd : TrackInside ({ m.dd with curBlock := block' } : DdController) := hinside
      exact places_writeSectorMoves hdd hfits (by omega) hcur hp
  | true =>
    have hbits : sector < 2 ^ 32 := Nat.lt_of_le_of_lt hsector (by decide)
    rcases updateBmRead_moves { m.dd with curBlock := block } hbits with hms | ⟨hlt, hms⟩
    · rw [if_pos rfl, hms] at hp
      exact absurd hp List.not_mem_nil
    · rw [if_pos rfl, hms] at hp
      have hdd : TrackInside ({ m.dd with curBlock := block } : DdController) := hinside
      exact places_readSectorMoves hdd hfits hlt hcur hp

theorem staysInside_endOfDma {read : Bool} (h : Running m.dd read block sector)
    (hsector : sector ≤ 85) (hfirst : read = false → 0 < sector) (hinside : TrackInside m.dd)
    (hfits : secByte m.dd < secSize m.dd) (hcart : m.device.pi .cartAddr = 0x05000400#32) :
    StaysInside cfg m (ddStep cfg m .endOfDma) := by
  rw [ddStep_endOfDma hcart]
  exact staysInside_ddUpdateBm
    (m := { m with device := m.device.piEndOfDmaEvent.1 }) h hsector hfirst hinside hfits

def UsesSecBuf (cfg : PiConfig) (m m' : PiMachine) : Prop :=
  ∃ places, m'.buffers.used = m.buffers.used ++ places ∧
    ∀ p ∈ places, (p.region = .rdram ∨ p.region = .secBuf) ∧ p.index < cfg.size p.region

theorem toNat_secBufLength_le (length : Word) {dram : Word} (hdram : dram.toNat < rdramSize) :
    (cutLength ((length &&& 0xFFFFFF#32) + 1#32)
      (((0x05000400#32 - 0x05000000#32) &&& 0x1FFFFFF#32) - 0x400#32) 0x100#32 dram).toNat ≤
        0x100 := by
  have hmask : (length &&& 0xFFFFFF#32).toNat ≤ 0xFFFFFF := by
    rw [BitVec.toNat_and]
    exact Nat.and_le_right
  have hlength : ((length &&& 0xFFFFFF#32) + 1#32).toNat ≤ 0x1000000 := by
    rw [BitVec.toNat_add_of_lt]
    · exact Nat.succ_le_succ hmask
    · exact Nat.lt_of_le_of_lt (Nat.succ_le_succ hmask) (by decide)
  rw [toNat_cutLength (by decide) (Nat.le_of_lt_succ hdram) hlength (by decide)]
  exact (Nat.min_le_left ..).trans (Nat.min_le_right ..)

theorem secBufAddress_lt {length : Word} (hlength : length.toNat ≤ 0x100) {i : Nat}
    (hi : i < length.toNat) :
    (((0x05000400#32 - 0x05000400#32) &&& 0x3FFFFF#32) + BitVec.ofNat 32 i).toNat ^^^ 3 <
      0x100 := by
  have hzero : (0x05000400#32 - 0x05000400#32) &&& 0x3FFFFF#32 = 0#32 := by decide
  rw [hzero, BitVec.zero_add, BitVec.toNat_ofNat, Nat.mod_eq_of_lt (by omega)]
  exact (xor_three_lt_iff rfl).mpr (by omega)

theorem dmaPiReadData_of_secBuf (hcart : m.device.pi .cartAddr = 0x05000400#32) :
    m.dmaPiReadData cfg = m.moves (writeMoves .secBuf cfg.cartRomSize
      ((0x05000400#32 - 0x05000400#32) &&& 0x3FFFFF#32) (m.device.pi .dramAddr)
      (cutLength ((m.device.pi .rdLen &&& 0xFFFFFF#32) + 1#32)
        (((0x05000400#32 - 0x05000000#32) &&& 0x1FFFFFF#32) - 0x400#32) 0x100#32
        (m.device.pi .dramAddr))) := by
  have hrange : 0x05000000#32 ≤ 0x05000400#32 ∧ 0x05000400#32 < 0x06000000#32 := by decide
  rw [PiMachine.dmaPiReadData, hcart]
  dsimp only
  rw [if_pos hrange, if_pos rfl]

theorem dmaPiWriteData_of_secBuf (hcart : m.device.pi .cartAddr = 0x05000400#32) :
    m.dmaPiWriteData cfg = m.moves (readMoves .secBuf cfg.cartRomSize
      ((0x05000400#32 - 0x05000400#32) &&& 0x3FFFFF#32) (m.device.pi .dramAddr)
      (cutLength ((m.device.pi .wrLen &&& 0xFFFFFF#32) + 1#32)
        (((0x05000400#32 - 0x05000000#32) &&& 0x1FFFFFF#32) - 0x400#32) 0x100#32
        (m.device.pi .dramAddr))) := by
  have hrange : 0x05000000#32 ≤ 0x05000400#32 ∧ 0x05000400#32 < 0x06000000#32 := by decide
  rw [PiMachine.dmaPiWriteData, PiMachine.ddBufferMoves, hcart]
  dsimp only
  rw [if_pos (by decide), if_neg (by decide), if_pos hrange, if_pos rfl]

theorem rdramSize_mod_four : rdramSize % 4 = 0 := rfl

theorem usesSecBuf_writePiRegs {reg : PiReg} (hreg : reg = .rdLen ∨ reg = .wrLen)
    (hcart : m.device.pi .cartAddr = 0x05000400#32)
    (hdram : (m.device.pi .dramAddr).toNat < rdramSize) (value mask : Word) :
    UsesSecBuf cfg m (m.writePiRegs cfg reg value mask).1 := by
  rcases hreg with rfl | rfl
  · let masked := maskedWrite (m.device.pi .rdLen) value mask
    let m' : PiMachine := { m with device := m.device.setPi .rdLen masked }
    have hdata : m'.dmaPiReadData cfg = _ := dmaPiReadData_of_secBuf hcart
    refine ⟨_, (congrArg (fun m => m.buffers.used) hdata).trans (Buffers.used_moves ..), ?_⟩
    intro p hp
    obtain ⟨move, hmove, hmem⟩ := List.mem_flatMap.mp hp
    obtain ⟨i, hi, rfl⟩ := mem_loop.mp hmove
    rcases List.mem_append.mp hmem with hsrc | hdst
    · obtain ⟨_, hin, rfl⟩ := src_writeMove_eq_some_iff.mp (Option.mem_toList.mp hsrc)
      have hlt := (xor_three_lt_iff rdramSize_mod_four).mpr hin
      exact ⟨.inl rfl, hlt⟩
    · obtain ⟨_, rfl⟩ := dst_writeMove_eq_some_iff.mp (Option.mem_toList.mp hdst)
      exact ⟨.inr rfl, secBufAddress_lt (toNat_secBufLength_le _ hdram) hi⟩
  · let masked := maskedWrite (m.device.pi .wrLen) value mask
    let m' : PiMachine := { m with device := m.device.setPi .wrLen masked }
    have hdata : m'.dmaPiWriteData cfg = _ := dmaPiWriteData_of_secBuf hcart
    refine ⟨_, (congrArg (fun m => m.buffers.used) hdata).trans (Buffers.used_moves ..), ?_⟩
    intro p hp
    rcases places_readMoves hp with ⟨hram, hin⟩ | ⟨i, hi, rfl, _⟩
    · exact ⟨.inl hram, by rw [hram]; exact hin⟩
    · exact ⟨.inr rfl, secBufAddress_lt (toNat_secBufLength_le _ hdram) hi⟩

end ParallelN64.Dd
