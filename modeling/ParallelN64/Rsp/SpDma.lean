import Mathlib.Data.UInt
import ParallelN64.Core.Rows

/-!
# Three implementations of the SP DMA

A word in `SP_RD_LEN` or `SP_WR_LEN` moves rows of bytes between the RDRAM and the memory of the
RSP: the DMEM and behind it the IMEM. The core, paraLLEl and cxd4 decode the word and go over the
rows on their own. All buffers hold host bytes; a host word holds four of them.
-/

namespace ParallelN64.Rsp

open ParallelN64.Core

/-- The memory of the RSP, with the IMEM behind the DMEM, and the main memory. -/
inductive SpRegion where
  | sp
  | rdram
  deriving DecidableEq, Repr

/-- The registers and memories that a DMA uses. -/
structure SpMachine where
  memAddr : UInt32
  dramAddr : UInt32
  rdLen : UInt32
  wrLen : UInt32
  status : UInt32
  dmaBusy : UInt32
  dirtyBlocks : UInt32
  buffers : Buffers SpRegion

/-- `rdram_safe_read_byte` and `rdram_safe_write_byte`: the place of an address, if there is
one. -/
def rdramSafe (addr : Nat) : Option (Place SpRegion) :=
  let addr := addr &&& 0x3FFFFFF
  if addr < 0x800000 then some ⟨.rdram, addr⟩ else none

section Core

variable (m : SpMachine) (length count skip : Nat)

/-- `dma_sp_write`: after `j` rows and `i` bytes the two addresses are this far. -/
def dmaSpWrite : SpMachine :=
  let memaddr := m.memAddr.toNat &&& 0xFFF
  let dramaddr := m.dramAddr.toNat &&& 0xFFFFFF
  let spmem := m.memAddr.toNat &&& 0x1000
  let moves := rows count fun j => loop length fun i =>
    ⟨rdramSafe ((dramaddr + (j * (length + skip) + i)) ^^^ 3),
      some ⟨.sp, spmem + (((memaddr + (j * length + i)) ^^^ 3) &&& 0xFFF)⟩, 0⟩
  { m with buffers := m.buffers.moves moves }

/-- `dma_sp_read`. -/
def dmaSpRead : SpMachine :=
  let memaddr := m.memAddr.toNat &&& 0xFFF
  let dramaddr := m.dramAddr.toNat &&& 0xFFFFFF
  let spmem := m.memAddr.toNat &&& 0x1000
  let moves := rows count fun j => loop length fun i =>
    ⟨some ⟨.sp, spmem + (((memaddr + (j * length + i)) ^^^ 3) &&& 0xFFF)⟩,
      rdramSafe ((dramaddr + (j * (length + skip) + i)) ^^^ 3), 0⟩
  { m with buffers := m.buffers.moves moves }

end Core

def maskedWrite (old value mask : UInt32) : UInt32 := (old &&& ~~~mask) ||| (value &&& mask)

/-- `write_rsp_regs` for `SP_RD_LEN`. -/
def writeRdLen (m : SpMachine) (value mask : UInt32) : SpMachine :=
  let m := { m with rdLen := maskedWrite m.rdLen value mask }
  let l := m.rdLen.toNat
  let length := ((l &&& 0xFFF) ||| 7) + 1
  let count := ((l >>> 12) &&& 0xFF) + 1
  let skip := (l >>> 20) &&& 0xFFF
  dmaSpWrite m length count skip

/-- `write_rsp_regs` for `SP_WR_LEN`; the length is not rounded. -/
def writeWrLen (m : SpMachine) (value mask : UInt32) : SpMachine :=
  let m := { m with wrLen := maskedWrite m.wrLen value mask }
  let l := m.wrLen.toNat
  let length := (l &&& 0xFFF) + 1
  let count := ((l >>> 12) &&& 0xFF) + 1
  let skip := (l >>> 20) &&& 0xFFF
  dmaSpRead m length count skip

def spWord (addr : Nat) : Place SpRegion :=
  if addr &&& 0x1000 ≠ 0 then ⟨.sp, 0x1000 + 4 * ((addr &&& 0xFFF) >>> 2)⟩
  else ⟨.sp, 4 * (addr >>> 2)⟩

def rdramWord (addr : Nat) : Place SpRegion := ⟨.rdram, 4 * (addr >>> 2)⟩

/-- The blocks of code that are marked when a word at an address was stored. -/
def invalidate (dirtyBlocks : UInt32) (addr : Nat) : UInt32 :=
  if addr &&& 0x1000 ≠ 0 then
    dirtyBlocks ||| ((3 <<< UInt32.ofNat ((addr &&& 0xFFF) / 256)) >>> 1)
  else dirtyBlocks

section Parallel

variable (m : SpMachine)

/-- The length of a row, cut off at the end of the memory where the first row starts. -/
def rowLength (lengthReg : Nat) : Nat :=
  let length := ((lengthReg &&& 0xFFF) ||| 7) + 1
  if (m.memAddr.toNat &&& 0xFFF) + length > 0x1000 then 0x1000 - (m.memAddr.toNat &&& 0xFFF)
  else length

/-- `rsp_dma_read`: `source` and `dest` after `i` rows, and `j` bytes in steps of a word. -/
def rspDmaRead : SpMachine :=
  let lengthReg := m.rdLen.toNat
  let skip := (lengthReg >>> 20) &&& 0xFF8
  let count := ((lengthReg >>> 12) &&& 0xFF) + 1
  let length := rowLength m lengthReg
  let source := m.dramAddr.toNat
  let dest := m.memAddr.toNat
  let destAddr := fun i k => (dest + i * length + 4 * k) &&& 0x1FFC
  let moves := rows count fun i => rows (turns 4 length) fun k =>
    copy 4 (spWord (destAddr i k))
      (rdramWord ((source + i * (length + skip) + 4 * k) &&& 0x7FFFFC))
  let dirtyBlocks := (List.range count).foldl (fun dirty i =>
    (List.range (turns 4 length)).foldl (fun dirty k => invalidate dirty (destAddr i k)) dirty)
    m.dirtyBlocks
  { m with
    dramAddr := UInt32.ofNat (source + count * (length + skip))
    memAddr := UInt32.ofNat (dest + count * length)
    rdLen := 0xFF8
    dirtyBlocks := dirtyBlocks
    buffers := m.buffers.moves moves }

/-- `rsp_dma_write`. -/
def rspDmaWrite : SpMachine :=
  let lengthReg := m.wrLen.toNat
  let skip := (lengthReg >>> 20) &&& 0xFF8
  let count := ((lengthReg >>> 12) &&& 0xFF) + 1
  let length := rowLength m lengthReg
  let dest := m.dramAddr.toNat
  let source := m.memAddr.toNat
  let moves := rows count fun i => rows (turns 4 length) fun k =>
    copy 4 (rdramWord ((dest + i * (length + skip) + 4 * k) &&& 0x7FFFFC))
      (spWord ((source + i * length + 4 * k) &&& 0x1FFC))
  { m with
    memAddr := UInt32.ofNat (source + count * length)
    dramAddr := UInt32.ofNat (dest + count * (length + skip))
    wrLen := 0xFF8
    buffers := m.buffers.moves moves }

/-- `RSP_MTC0` for the length of a read. -/
def rspMtc0ReadLength (val : UInt32) : SpMachine := rspDmaRead { m with rdLen := val }

/-- `RSP_MTC0` for the length of a write. -/
def rspMtc0WriteLength (val : UInt32) : SpMachine := rspDmaWrite { m with wrLen := val }

end Parallel

section Cxd4

variable (m : SpMachine)

def SpMachine.dmaDone : SpMachine := { m with dmaBusy := 0, status := m.status &&& ~~~4 }

def readDram (offC offD : Nat) : List (Move SpRegion) :=
  if offD &&& 0xFF800007 ≠ 0 then fillWith 8 ⟨.sp, offC⟩ 0 else copy 8 ⟨.sp, offC⟩ ⟨.rdram, offD⟩

/-- `SP_DMA_READ`: the rows are counted down. -/
def spDmaRead : SpMachine :=
  let length := (m.rdLen.toNat &&& 0xFFF) + 1
  let count := ((m.rdLen.toNat &&& 0xFF000) >>> 12) + 1
  let skip := ((m.rdLen.toNat &&& 0xFFF00000) >>> 20) + length
  let moves := rowsDown count fun count => rows (turns 8 length) fun i =>
    readDram ((count * length + m.memAddr.toNat + 8 * i) &&& 0x1FF8)
      ((count * skip + m.dramAddr.toNat + 8 * i) &&& 0xFFFFF8)
  { m with buffers := m.buffers.moves moves }.dmaDone

/-- `SP_DMA_WRITE`. -/
def spDmaWrite : SpMachine :=
  let length := (m.wrLen.toNat &&& 0xFFF) + 1
  let count := ((m.wrLen.toNat &&& 0xFF000) >>> 12) + 1
  let skip := ((m.wrLen.toNat &&& 0xFFF00000) >>> 20) + length
  let moves := rowsDown count fun count => rows (turns 8 length) fun i =>
    copy 8 ⟨.rdram, (count * skip + m.dramAddr.toNat + 8 * i) &&& 0xFFFFF8⟩
      ⟨.sp, (count * length + m.memAddr.toNat + 8 * i) &&& 0x1FF8⟩
  { m with buffers := m.buffers.moves moves }.dmaDone

/-- `MT_DMA_READ_LENGTH`. -/
def mtDmaReadLength (source : UInt32) : SpMachine := spDmaRead { m with rdLen := source ||| 7 }

/-- `MT_DMA_WRITE_LENGTH`. -/
def mtDmaWriteLength (source : UInt32) : SpMachine := spDmaWrite { m with wrLen := source ||| 7 }

end Cxd4

end ParallelN64.Rsp
