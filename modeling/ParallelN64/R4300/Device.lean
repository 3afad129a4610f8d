import Mathlib.Logic.Function.Basic
import ParallelN64.R4300.EventQueue

/-!
# The control registers of the machine

The registers that decide when interrupts are taken: those of the R4300 and its coprocessor
0, of the MIPS interface, and of the devices that schedule events. Memories, general
registers and everything that only holds data are kept apart.
-/

namespace ParallelN64.R4300

/-- The registers of coprocessor 0, in their order. -/
inductive Cp0Reg where
  | index | random | entryLo0 | entryLo1 | context | pageMask | wired | unused7
  | badVAddr | count | entryHi | compare | status | cause | epc | prevId
  | config | llAddr | watchLo | watchHi | xContext | unused21 | unused22 | unused23
  | unused24 | unused25 | unused26 | unused27 | tagLo | tagHi | errorEpc | unused31
  deriving DecidableEq

/-- The registers of the MIPS interface. -/
inductive MiReg where
  | initMode | version | intr | intrMask
  deriving DecidableEq

/-- The registers of the signal processor. -/
inductive SpReg where
  | memAddr | dramAddr | rdLen | wrLen | status | dmaFull | dmaBusy | semaphore
  deriving DecidableEq

/-- The second register bank of the signal processor. -/
inductive SpReg2 where
  | pc | ibist
  deriving DecidableEq

/-- The command registers of the display processor. -/
inductive DpcReg where
  | start | endAddr | current | status | clock | bufBusy | pipeBusy | tmem
  deriving DecidableEq

/-- The span registers of the display processor. -/
inductive DpsReg where
  | tbist | testMode | bufTestAddr | bufTestData
  deriving DecidableEq

/-- The registers of the peripheral interface. -/
inductive PiReg where
  | dramAddr | cartAddr | rdLen | wrLen | status
  | bsdDom1Lat | bsdDom1Pwd | bsdDom1Pgs | bsdDom1Rls
  | bsdDom2Lat | bsdDom2Pwd | bsdDom2Pgs | bsdDom2Rls
  deriving DecidableEq

/-- The registers of the serial interface that are not reserved. -/
inductive SiReg where
  | dramAddr | pifAddrRd64b | pifAddrWr64b | status
  deriving DecidableEq

/-- The registers of the audio interface. -/
inductive AiReg where
  | dramAddr | len | control | status | dacRate | bitRate
  deriving DecidableEq

/-- The registers of the video interface. -/
inductive ViReg where
  | status | origin | width | vIntr | current | burst | vSync | hSync | leap | hStart
  | vStart | vBurst | xScale | yScale
  deriving DecidableEq

/-- Status: interrupts enabled, exception level, error level, coprocessor 1 usable. -/
def cp0StatusIE : Word := 0x00000001#32
def cp0StatusEXL : Word := 0x00000002#32
def cp0StatusERL : Word := 0x00000004#32
def cp0StatusIM4 : Word := 0x00001000#32
def cp0StatusSR : Word := 0x00100000#32
def cp0StatusTS : Word := 0x00200000#32
def cp0StatusBEV : Word := 0x00400000#32
def cp0StatusFR : Word := 0x04000000#32
def cp0StatusCU1 : Word := 0x20000000#32

/-- Cause: exception code, pending interrupts, coprocessor number, branch delay. -/
def cp0CauseExcCodeMask : Word := 0x0000007C#32
def cp0CauseExcCodeTLBL : Word := 0x00000008#32
def cp0CauseExcCodeTLBS : Word := 0x0000000C#32
def cp0CauseExcCodeSYS : Word := 0x00000020#32
def cp0CauseExcCodeCPU : Word := 0x0000002C#32
def cp0CauseIP2 : Word := 0x00000400#32
def cp0CauseIP3 : Word := 0x00000800#32
def cp0CauseIP4 : Word := 0x00001000#32
def cp0CauseIP7 : Word := 0x00008000#32
def cp0CauseCE1 : Word := 0x10000000#32
def cp0CauseBD : Word := 0x80000000#32

/-- The interrupt bits of the MIPS interface. -/
def miIntrSP : Word := 0x01#32
def miIntrSI : Word := 0x02#32
def miIntrAI : Word := 0x04#32
def miIntrVI : Word := 0x08#32
def miIntrPI : Word := 0x10#32
def miIntrDP : Word := 0x20#32

/-- One transfer of the audio interface. -/
structure AiDma where
  address : Word
  length : Word
  duration : Word

/-- The audio interface with its two-entry queue of transfers. -/
structure AiController where
  regs : AiReg → Word
  fifo0 : AiDma
  fifo1 : AiDma
  samplesFormatChanged : Bool
  audioPos : Word
  lastRead : Word

/-- The video interface and its schedule. -/
structure ViController where
  regs : ViReg → Word
  field : Word
  delay : Word
  nextVi : Word

/-- The signal processor. -/
structure RspCore where
  regs : SpReg → Word
  regs2 : SpReg2 → Word
  rspTaskLocked : Bool

/-- The display processor. -/
structure RdpCore where
  dpcRegs : DpcReg → Word
  dpsRegs : DpsReg → Word

/-- The control state of the machine. Of the disk drive only whether its buffer manager
runs is kept. -/
structure Device where
  cp0 : Cp0Reg → Word
  pc : Word
  lastAddr : Word
  skipJump : Word
  delaySlot : Bool
  stop : Bool
  interruptUnsafeState : Bool
  resetHardJob : Bool
  interrupts : Interrupts
  mi : MiReg → Word
  sp : RspCore
  dp : RdpCore
  ai : AiController
  pi : PiReg → Word
  si : SiReg → Word
  vi : ViController
  ddTransfer : Bool

/-- What the machine is configured with and never changes while it runs. -/
structure Config where
  countPerOp : Word
  viRefreshRate : Word
  alternateViTiming : Bool
  viClock : Word
  expectedRefreshRate : Word
  audioSignal : Bool
  perfectDark : Bool
  delaySi : Bool
  siDmaDuration : Word
  fixedAudioPos : Bool
  cartRomSize : Word
  ddRomSize : Word
  bsdDom1Config : Word

/-- `MASKED_WRITE`: the bits of the mask are taken from the value. -/
def maskedWrite (dst value mask : Word) : Word := (dst &&& ~~~mask) ||| (value &&& mask)

def Device.setCp0 (d : Device) (reg : Cp0Reg) (value : Word) : Device :=
  { d with cp0 := Function.update d.cp0 reg value }

def Device.setMi (d : Device) (reg : MiReg) (value : Word) : Device :=
  { d with mi := Function.update d.mi reg value }

def Device.setPi (d : Device) (reg : PiReg) (value : Word) : Device :=
  { d with pi := Function.update d.pi reg value }

def Device.setSi (d : Device) (reg : SiReg) (value : Word) : Device :=
  { d with si := Function.update d.si reg value }

def Device.setSp (d : Device) (reg : SpReg) (value : Word) : Device :=
  { d with sp := { d.sp with regs := Function.update d.sp.regs reg value } }

def Device.setDpc (d : Device) (reg : DpcReg) (value : Word) : Device :=
  { d with dp := { d.dp with dpcRegs := Function.update d.dp.dpcRegs reg value } }

def Device.setAi (d : Device) (reg : AiReg) (value : Word) : Device :=
  { d with ai := { d.ai with regs := Function.update d.ai.regs reg value } }

def Device.setVi (d : Device) (reg : ViReg) (value : Word) : Device :=
  { d with vi := { d.vi with regs := Function.update d.vi.regs reg value } }

def Device.count (d : Device) : Word := d.cp0 .count

def Device.cause (d : Device) : Word := d.cp0 .cause

def Device.status (d : Device) : Word := d.cp0 .status

end ParallelN64.R4300
