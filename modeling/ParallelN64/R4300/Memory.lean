import ParallelN64.R4300.Interpreter
import ParallelN64.Rom.OpenRom
import ParallelN64.Tlb.Mirror

/-!
# Memory as the interpreter reaches it

Two segments of the address space reach the hardware directly, the rest goes through the
translation tables. The accesses set the global `address`: it is the physical address in the
end, and zero after a miss. RDRAM is an array of host words; the handlers of all other regions
are parameters.
-/

namespace ParallelN64.R4300

open Rom (SpecialRom)
open Savestate (TlbEntry)
open Tlb (Leads Luts TlbState direct)

/-- The buffer with its tables, which only lead into the direct segments. -/
structure Translation extends TlbState where
  leads : Leads toTlbState

def Translation.pages (t : Translation) : List TlbPages :=
  List.ofFn fun i =>
    ⟨(t.entries i).startEven, (t.entries i).endEven, (t.entries i).startOdd, (t.entries i).endOdd⟩

def TlbAccess.table : TlbAccess → Tlb.Access
  | .write => .write
  | _ => .read

/-- What a game changes in the translation. -/
structure RomHacks where
  specialRom : SpecialRom
  destinationCode : BitVec 16

/-- The page table of one game, by its country. -/
def RomHacks.goldenEye (h : RomHacks) (address : Word) : Option Word :=
  if h.specialRom = .goldenEye ∧ 0x7F000000#32 ≤ address ∧ address < 0x80000000#32 then
    some ((match (h.destinationCode &&& 0xFF#16).toNat with
      | 0x45 => 0xB0034B30#32
      | 0x4A => 0xB0034B70#32
      | 0x50 => 0xB00329F0#32
      | _ => 0xB0034B30#32) + (address &&& 0xFFFFFF#32))
  else none

/-- `virtual_to_physical_address`, but for the exception that it raises when it has none. -/
def Translation.physical (t : Translation) (h : RomHacks) (access : TlbAccess) (address : Word) :
    Option Word :=
  (h.goldenEye address).or <|
    let value := t.luts.of access.table (Tlb.page address)
    if value ≠ 0#32 then some ((value &&& 0xFFFFF000#32) ||| (address &&& 0xFFF#32)) else none

def Translation.resolve (t : Translation) (h : RomHacks) (access : TlbAccess) (address : Word) :
    Option Word :=
  if direct address then some address else t.physical h access address

abbrev Dram := BitVec 21 → Word

def dramIndex (address : Word) : Option (BitVec 21) :=
  let index := (address &&& 0x3FFFFFF#32) >>> 2
  if index < 0x200000#32 then some (index.setWidth 21) else none

/-- `rdram_safe_read_word`. -/
def rdramSafeReadWord (dram : Dram) (address : Word) : Word := (dramIndex address).elim 0#32 dram

/-- `rdram_safe_masked_write_word`. -/
def rdramSafeMaskedWriteWord (dram : Dram) (address value mask : Word) : Dram :=
  (dramIndex address).elim dram fun i => Function.update dram i (maskedWrite (dram i) value mask)

/-- How much an access moves. -/
inductive Width where
  | byte | hword | word | dword
  deriving DecidableEq

def bshift (address : Word) : Nat := ((address &&& 3#32) ^^^ 3#32).toNat <<< 3
def hshift (address : Word) : Nat := ((address &&& 2#32) ^^^ 2#32).toNat <<< 3

/-- `readb`, `readh`, `readw` and `readd` of RDRAM. -/
def readRdram (dram : Dram) (address : Word) : Width → BitVec 64
  | .byte => ((rdramSafeReadWord dram address >>> bshift address) &&& 0xFF#32).setWidth 64
  | .hword => ((rdramSafeReadWord dram address >>> hshift address) &&& 0xFFFF#32).setWidth 64
  | .word => (rdramSafeReadWord dram address).setWidth 64
  | .dword =>
    ((rdramSafeReadWord dram address).setWidth 64 <<< 32) |||
      (rdramSafeReadWord dram (address + 4#32)).setWidth 64

/-- `writeb`, `writeh`, `writew` and `writed` of RDRAM. -/
def writeRdram (dram : Dram) (address : Word) (value : BitVec 64) : Width → Dram
  | .byte =>
    rdramSafeMaskedWriteWord dram address ((value.setWidth 8).setWidth 32 <<< bshift address)
      (0xFF#32 <<< bshift address)
  | .hword =>
    rdramSafeMaskedWriteWord dram address ((value.setWidth 16).setWidth 32 <<< hshift address)
      (0xFFFF#32 <<< hshift address)
  | .word => rdramSafeMaskedWriteWord dram address (value.setWidth 32) 0xFFFFFFFF#32
  | .dword =>
    rdramSafeMaskedWriteWord
      (rdramSafeMaskedWriteWord dram address ((value >>> 32).setWidth 32) 0xFFFFFFFF#32)
      (address + 4#32) (value.setWidth 32) 0xFFFFFFFF#32

def inRdram (address : Word) : Prop := direct address ∧ address &&& 0x1FFFFFFF#32 < 0x800000#32

instance (address : Word) : Decidable (inRdram address) :=
  inferInstanceAs (Decidable (_ ∧ _))

/-- All memory: RDRAM, and what lies behind other regions. -/
structure Memory (μ : Type) where
  dram : Dram
  other : μ

/-- The handlers of the regions outside of RDRAM. They reach the control state and the registers
of the devices; a write reaches all memory, a read gives a value. The last one is where
`fast_mem_access` points outside of RDRAM. -/
structure Handlers (ρ μ : Type) where
  read : Width → Word → Device × ρ → Memory μ → BitVec 64 × Device × ρ
  write : Width → Word → BitVec 64 → Device × ρ → Memory μ → (Device × ρ) × Memory μ
  code : μ → Word → Option Word

/-- What does not change while a game runs. -/
structure Board (ρ μ : Type) where
  cfg : Config
  hacks : RomHacks
  handlers : Handlers ρ μ

/-- The processor with what it reaches. -/
structure Cpu (ρ μ : Type) where
  device : Device
  regs : ρ
  memory : Memory μ
  gpr : BitVec 5 → BitVec 64
  fpr : BitVec 5 → BitVec 64
  llbit : Bool
  tlb : Translation

variable {ρ μ : Type} (b : Board ρ μ) (s : Cpu ρ μ)

def Cpu.resolve (access : TlbAccess) (address : Word) : Option Word :=
  s.tlb.resolve b.hacks access address

def Cpu.miss (access : TlbAccess) (address : Word) : TlbMiss := ⟨s.tlb.pages, address, access⟩

/-- The exception of `virtual_to_physical_address`; one game goes without. -/
def Cpu.refill (access : TlbAccess) (address : Word) : Cpu ρ μ :=
  if b.hacks.specialRom = .ratAttack then s
  else { s with device := s.device.tlbRefillException b.cfg (s.miss access address) }

/-- What a read leaves: the processor, the global `address` and what `rdword` points to. -/
structure ReadResult (ρ μ : Type) where
  cpu : Cpu ρ μ
  address : Word
  rdword : BitVec 64

/-- The handler of a region for reading. -/
def Cpu.readRegion (width : Width) (address : Word) : ReadResult ρ μ :=
  if inRdram address then ⟨s, address, readRdram s.memory.dram address width⟩
  else
    let (value, device, regs) := b.handlers.read width address (s.device, s.regs) s.memory
    ⟨{ s with device, regs }, address, value⟩

/-- `read_word_in_memory` and its siblings. -/
def Cpu.readInMemory (width : Width) (address : Word) (rdword : BitVec 64) : ReadResult ρ μ :=
  match s.resolve b .read address with
  | some physical => s.readRegion b width physical
  | none => ⟨s.refill b .read address, 0#32, rdword⟩

/-- The handler of a region for writing. -/
def Cpu.writeRegion (width : Width) (address : Word) (value : BitVec 64) : Cpu ρ μ :=
  if inRdram address then
    { s with memory := { s.memory with dram := writeRdram s.memory.dram address value width } }
  else
    let ((device, regs), memory) :=
      b.handlers.write width address value (s.device, s.regs) s.memory
    { s with device, regs, memory }

/-- `write_word_in_memory` and its siblings. -/
def Cpu.writeInMemory (width : Width) (address : Word) (value : BitVec 64) : Cpu ρ μ :=
  match s.resolve b .write address with
  | some physical => s.writeRegion b width physical value
  | none => s.refill b .write address

end ParallelN64.R4300
