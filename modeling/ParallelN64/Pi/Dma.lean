import ParallelN64.Pi.Machine

/-!
# Transfers of the peripheral interface

`dma_pi_read` moves bytes out of main memory, `dma_pi_write` into it. The cartridge address
selects the other side: the buffers of the disk drive, static or flash memory, or one of
the images. The flash memory also has a command register, which erases and programs pages.
-/

namespace ParallelN64.Pi

open ParallelN64.Core R4300

section Dma

variable (m : PiMachine)

/-- One turn of a loop that copies a buffer into main memory. Bytes behind the size read as
zero. -/
def readMove (region : Region) (size address dramAddress : Word) (i : Nat) : Move Region where
  src := guarded region size ((address + BitVec.ofNat 32 i) ^^^ s8)
  dst := rdramSafe ((dramAddress + BitVec.ofNat 32 i) ^^^ s8)
  fill := 0

/-- One turn of a loop that copies main memory into a buffer. Bytes behind the size are
skipped. -/
def writeMove (region : Region) (size address dramAddress : Word) (i : Nat) : Move Region :=
  match guarded region size ((address + BitVec.ofNat 32 i) ^^^ s8) with
  | none => ⟨none, none, 0⟩
  | some p => ⟨rdramSafe ((dramAddress + BitVec.ofNat 32 i) ^^^ s8), some p, 0⟩

def readMoves (region : Region) (size address dramAddress length : Word) : List (Move Region) :=
  loop length.toNat (readMove region size address dramAddress)

def writeMoves (region : Region) (size address dramAddress length : Word) : List (Move Region) :=
  loop length.toNat (writeMove region size address dramAddress)

/-- `dma_read_sram`. -/
def PiMachine.dmaReadSram : PiMachine :=
  let length := (m.device.pi .wrLen &&& 0xFFFFFF#32) + 1#32
  let cartAddr := (m.device.pi .cartAddr - 0x08000000#32) &&& 0xFFFF#32
  m.moves (readMoves .sram 0x8000#32 cartAddr (m.device.pi .dramAddr) length)

/-- `dma_write_sram`. -/
def PiMachine.dmaWriteSram : PiMachine :=
  let length := (m.device.pi .rdLen &&& 0xFFFFFF#32) + 1#32
  let cartAddr := m.device.pi .cartAddr - 0x08000000#32
  m.moves (writeMoves .sram 0x8000#32 cartAddr (m.device.pi .dramAddr) length)

def eraseMoves (offset : Word) : List (Move Region) :=
  loop 128 fun i =>
    ⟨none, guarded .flash 0x20000#32 ((offset + BitVec.ofNat 32 i) ^^^ s8), 0xFF⟩

/-- The execute command. -/
def PiMachine.flashramExecute : PiMachine :=
  let m' :=
    match m.flashram.mode with
    | .nopes | .read | .status => m
    | .erase => m.moves (eraseMoves m.flashram.eraseOffset)
    | .write =>
      m.moves (writeMoves .flash 0x20000#32 m.flashram.eraseOffset m.flashram.writePointer 128#32)
  { m' with flashram := { m.flashram with mode := .nopes } }

/-- `flashram_command`. -/
def PiMachine.flashramCommand (command : Word) : PiMachine :=
  let flashram := m.flashram
  match command &&& 0xFF000000#32 with
  | 0x4B000000#32 =>
    { m with flashram := { flashram with eraseOffset := (command &&& 0xFFFF#32) * 128#32 } }
  | 0x78000000#32 =>
    { m with flashram := { flashram with mode := .erase, status := 0x1111800800C20000#64 } }
  | 0xA5000000#32 =>
    { m with flashram :=
      { flashram with
        eraseOffset := (command &&& 0xFFFF#32) * 128#32, status := 0x1111800400C20000#64 } }
  | 0xB4000000#32 => { m with flashram := { flashram with mode := .write } }
  | 0xD2000000#32 => m.flashramExecute
  | 0xE1000000#32 =>
    { m with flashram := { flashram with mode := .status, status := 0x1111800100C20000#64 } }
  | 0xF0000000#32 =>
    { m with flashram := { flashram with mode := .read, status := 0x11118004F0000000#64 } }
  | _ => m

/-- `poweron_flashram`. -/
def poweronFlashram : Flashram := ⟨.nopes, 0, 0, 0⟩

/-- `write_flashram_command`. A failed write changes nothing. -/
def PiMachine.writeFlashramCommand (address value mask : Word) : PiMachine :=
  if m.useFlashram = .sram ∨ address &&& 0xFFFF#32 ≠ 0#32 then m
  else { m with useFlashram := .flash }.flashramCommand (value &&& mask)

/-- `read_flashram_status`. A failed read gives no value. -/
def PiMachine.readFlashramStatus (address : Word) : PiMachine × Option Word :=
  if m.useFlashram = .sram ∨ address &&& 0xFFFF#32 ≠ 0#32 then (m, none)
  else ({ m with useFlashram := .flash }, some ((m.flashram.status >>> 32).setWidth 32))

/-- `dma_read_flashram`. The status is stored without looking at the size of memory. -/
def PiMachine.dmaReadFlashram : PiMachine :=
  let dramAddr := m.device.pi .dramAddr
  match m.flashram.mode with
  | .status =>
    let word := dramAddr.toNat / 4
    m.moves (storeWord (4 * word) ((m.flashram.status >>> 32).setWidth 32) ++
      storeWord (4 * (word + 1)) (m.flashram.status.setWidth 32))
  | .read =>
    let length := (m.device.pi .wrLen &&& 0xFFFFFF#32) + 1#32
    let cartAddr := ((m.device.pi .cartAddr - 0x08000000#32) &&& 0xFFFF#32) * 2#32
    m.moves (readMoves .flash 0x20000#32 cartAddr dramAddr length)
  | _ => m

/-- `dma_write_flashram`: only the address of the page is noted. -/
def PiMachine.dmaWriteFlashram : PiMachine :=
  match m.flashram.mode with
  | .write => { m with flashram := { m.flashram with writePointer := m.device.pi .dramAddr } }
  | _ => m

variable (cfg : PiConfig)

/-- `force_detected_rdram_size_hack`. -/
def sizeHackMoves : List (Move Region) :=
  storeWord (if cfg.cicX105 then 0x3F0 else 0x318) cfg.dramSize

/-- A transfer from the 64DD image into main memory. The size that guards every byte is the
size of the cartridge image. -/
def PiMachine.iplMoves : List (Move Region) :=
  let dram := m.device.pi .dramAddr
  let cart := m.device.pi .cartAddr
  let length := (m.device.pi .wrLen &&& 0xFFFFFE#32) + 2#32
  let i := (cart - 0x06000000#32) &&& 0x1FFFFFF#32
  let length := cutLength length i cfg.ddRomSize dram
  if cfg.ddRomSize < i ∨ 0x7FFFFF#32 < dram then []
  else
    readMoves .ddRom cfg.cartRomSize ((cart - 0x06000000#32) &&& 0x3FFFFF#32) dram length ++
      if cart = 0x06001000#32 then sizeHackMoves cfg else []

/-- A transfer from the cartridge image into main memory. -/
def PiMachine.cartMoves : List (Move Region) :=
  let dram := m.device.pi .dramAddr
  let cart := m.device.pi .cartAddr
  let length := (m.device.pi .wrLen &&& 0xFFFFFE#32) + 2#32
  let i := (cart - 0x10000000#32) &&& 0x3FFFFFF#32
  let length := cutLength length i cfg.cartRomSize dram
  if cfg.cartRomSize < i ∨ 0x7FFFFF#32 < dram then []
  else
    readMoves .cartRom cfg.cartRomSize ((cart - 0x10000000#32) &&& 0x3FFFFFF#32) dram length ++
      if cart = 0x10001000#32 then sizeHackMoves cfg else []

/-- A transfer from a buffer of the disk drive into main memory. -/
def PiMachine.ddBufferMoves : List (Move Region) :=
  let dram := m.device.pi .dramAddr
  let cart := m.device.pi .cartAddr
  let length := (m.device.pi .wrLen &&& 0xFFFFFF#32) + 1#32
  let i := (cart - 0x05000000#32) &&& 0x1FFFFFF#32
  if cart = 0x05000400#32 then
    readMoves .secBuf cfg.cartRomSize ((cart - 0x05000400#32) &&& 0x3FFFFF#32) dram
      (cutLength length (i - 0x400#32) 0x100#32 dram)
  else if cart = 0x05000000#32 then
    readMoves .c2Buf cfg.cartRomSize ((cart - 0x05000000#32) &&& 0x3FFFFF#32) dram
      (cutLength length i 0x400#32 dram)
  else []

/-- What `dma_pi_write` moves. -/
def PiMachine.dmaPiWriteData : PiMachine :=
  let cart := m.device.pi .cartAddr
  if cart < 0x10000000#32 ∧ ¬ (0x06000000#32 ≤ cart ∧ cart < 0x08000000#32) then
    if 0x08000000#32 ≤ cart ∧ cart < 0x08010000#32 then
      if m.useFlashram ≠ .flash then { m.dmaReadSram with useFlashram := .sram }
      else m.dmaReadFlashram
    else if 0x05000000#32 ≤ cart ∧ cart < 0x06000000#32 then m.moves (m.ddBufferMoves cfg)
    else m
  else if 0x1FC00000#32 ≤ cart then m
  else if 0x06000000#32 ≤ cart ∧ cart < 0x08000000#32 then m.moves (m.iplMoves cfg)
  else m.moves (m.cartMoves cfg)

/-- `dma_pi_write`. -/
def PiMachine.dmaPiWrite : PiMachine × List Call :=
  let (device, calls) := m.device.dmaPiWrite cfg.toConfig
  ({ m.dmaPiWriteData cfg with device }, calls)

/-- What `dma_pi_read` moves. -/
def PiMachine.dmaPiReadData : PiMachine :=
  let cart := m.device.pi .cartAddr
  if 0x05000000#32 ≤ cart ∧ cart < 0x06000000#32 then
    let dram := m.device.pi .dramAddr
    let length := (m.device.pi .rdLen &&& 0xFFFFFF#32) + 1#32
    let i := (cart - 0x05000000#32) &&& 0x1FFFFFF#32
    if cart = 0x05000400#32 then
      m.moves (writeMoves .secBuf cfg.cartRomSize ((cart - 0x05000400#32) &&& 0x3FFFFF#32) dram
        (cutLength length (i - 0x400#32) 0x100#32 dram))
    else m
  else if 0x08000000#32 ≤ cart ∧ cart < 0x08010000#32 then
    if m.useFlashram ≠ .flash then { m.dmaWriteSram with useFlashram := .sram }
    else m.dmaWriteFlashram
  else m

/-- `dma_pi_read`. -/
def PiMachine.dmaPiRead : PiMachine × List Call :=
  let (device, calls) := m.device.dmaPiRead
  ({ m.dmaPiReadData cfg with device }, calls)

/-- `write_pi_regs`. The disk drive's request bits fall when its buffers are addressed. -/
def PiMachine.writePiRegs (reg : PiReg) (value mask : Word) : PiMachine × List Call :=
  let masked := maskedWrite (m.device.pi reg) value mask
  match reg with
  | .cartAddr =>
    let status := m.dd.regs .cmdStatus
    let dd :=
      if value = 0x05000000#32 then m.dd.setReg .cmdStatus (status &&& ~~~0x1C000000#32)
      else if value = 0x05000400#32 then m.dd.setReg .cmdStatus (status &&& ~~~0x4C000000#32)
      else m.dd
    let (device, calls) := m.device.writePiRegs cfg.toConfig .cartAddr value mask
    ({ m with device, dd }, calls)
  | .rdLen => PiMachine.dmaPiRead { m with device := m.device.setPi .rdLen masked } cfg
  | .wrLen => PiMachine.dmaPiWrite { m with device := m.device.setPi .wrLen masked } cfg
  | reg =>
    let (device, calls) := m.device.writePiRegs cfg.toConfig reg value mask
    ({ m with device }, calls)

end Dma

end ParallelN64.Pi
