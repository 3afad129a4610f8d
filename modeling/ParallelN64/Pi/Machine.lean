import ParallelN64.Core.Transfer
import ParallelN64.R4300.Interpreter

/-!
# The memories behind the peripheral interface

The control registers of the machine together with what the peripheral interface moves
bytes between: main memory, the cartridge and disk drive images, the save memories, and the
buffers and image of the disk drive. All memories are kept as host bytes; a byte of a
big-endian address has the last two bits of its address inverted.
-/

namespace ParallelN64.Pi

open ParallelN64.Core R4300

/-- The buffers that bytes are moved between. -/
inductive Region where
  | rdram | cartRom | ddRom | flash | sram | secBuf | c2Buf | disk
  deriving DecidableEq

def rdramSize : Nat := 0x800000

/-- `FLASHRAM_SIZE`, `SRAM_SIZE` and `MAME_FORMAT_DUMP_SIZE`. -/
def flashramSize : Nat := 0x20000
def sramSize : Nat := 0x8000
def diskSize : Nat := 0x0435B0C0

/-- What the machine is configured with. The memory size is the one that is reported to
software. -/
structure PiConfig extends Config where
  cicX105 : Bool
  dramSize : Word
  dd : Bool

/-- The sizes of the buffers. -/
def PiConfig.size (cfg : PiConfig) : Region → Nat
  | .rdram => rdramSize
  | .cartRom => cfg.cartRomSize.toNat
  | .ddRom => cfg.ddRomSize.toNat
  | .flash => flashramSize
  | .sram => sramSize
  | .secBuf => 0x100
  | .c2Buf => 0x400
  | .disk => diskSize

/-- The modes of the flash memory. -/
inductive FlashramMode where
  | nopes | erase | write | read | status
  deriving DecidableEq

/-- The flash memory controller. -/
structure Flashram where
  mode : FlashramMode
  status : BitVec 64
  eraseOffset : Word
  writePointer : Word

/-- Which save memory software uses: not known yet, flash memory, or static memory. -/
inductive UseFlashram where
  | unknown | flash | sram
  deriving DecidableEq

/-- The registers of the disk drive, in their order. -/
inductive AsicReg where
  | data | miscReg | cmdStatus | curTk | bmStatusCtl | errSector | seqStatusCtl | curSector
  | hardReset | c1S0 | hostSecbyte | c1S2 | secByte | c1S4 | c1S6 | curAddr | idReg | testReg
  | testPinSel
  deriving DecidableEq

/-- A track has two blocks. -/
instance neZeroBlocks : @NeZero Nat Zero.ofOfNat0 2 := ⟨Nat.succ_ne_zero 1⟩

/-- There are sixteen zones, of both heads. -/
instance neZeroZones : @NeZero Nat Zero.ofOfNat0 16 := ⟨Nat.succ_ne_zero 15⟩

/-- The disk drive. -/
structure DdController where
  regs : AsicReg → Word
  bmModeRead : Bool
  curBlock : Fin 2
  zone : Fin 16
  trackOffset : Word
  bmResetHold : Bool

def DdController.setReg (dd : DdController) (reg : AsicReg) (value : Word) : DdController :=
  { dd with regs := Function.update dd.regs reg value }

/-- The machine, seen from the peripheral interface. -/
structure PiMachine where
  device : Device
  flashram : Flashram
  useFlashram : UseFlashram
  dd : DdController
  buffers : Buffers Region

/-- The machine before anything ran, with all memories cleared. -/
def blankMachine : PiMachine where
  device := blankDevice
  flashram := ⟨.nopes, 0, 0, 0⟩
  useFlashram := .unknown
  dd := ⟨fun _ => 0, false, 0, 0, 0, false⟩
  buffers := ⟨fun _ => 0, []⟩

def samplePiConfig : PiConfig :=
  { sampleConfig with
    cartRomSize := 0x800000#32, ddRomSize := 0x400000#32, cicX105 := false
    dramSize := 0x800000#32, dd := true }

/-- `S8`: how a big-endian byte address is found in an array of host words. -/
def s8 : Word := 3#32

/-- `rdram_safe_read_byte` and `rdram_safe_write_byte`: the byte of main memory at an
address, if there is one. -/
def rdramSafe (addr : Word) : Option (Place Region) :=
  let addr := addr &&& 0x3FFFFFF#32
  if addr < 0x800000#32 then some ⟨.rdram, addr.toNat⟩ else none

def guarded (region : Region) (size index : Word) : Option (Place Region) :=
  if index < size then some ⟨region, index.toNat⟩ else none

def storeWord (index : Nat) (value : Word) : List (Move Region) :=
  loop 4 fun i => ⟨none, some ⟨.rdram, index + i⟩, ⟨(value >>> (8 * i)).setWidth 8⟩⟩

def PiMachine.rdramByte (m : PiMachine) (address : Nat) : UInt8 :=
  m.buffers.bytes ⟨.rdram, address ^^^ 3⟩

/-- `rdram_safe_read_byte` at a big-endian address. -/
def PiMachine.rdramAt (m : PiMachine) (address : Nat) : UInt8 :=
  if address % 2 ^ 26 < rdramSize then m.rdramByte (address % 2 ^ 26) else 0

def PiMachine.moves (m : PiMachine) (ms : List (Move Region)) : PiMachine :=
  { m with buffers := m.buffers.moves ms }

@[simp] theorem PiMachine.moves_buffers (m : PiMachine) (ms : List (Move Region)) :
    (m.moves ms).buffers = m.buffers.moves ms := rfl

theorem xor_three_div_four (n : Nat) : (n ^^^ 3) / 4 = n / 4 := by
  have h := Nat.xor_div_two_pow (a := n) (b := 3) (n := 2)
  rw [show 3 / 2 ^ 2 = 0 from rfl, Nat.xor_zero] at h
  exact h

end ParallelN64.Pi
