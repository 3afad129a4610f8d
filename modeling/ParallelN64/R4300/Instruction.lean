import ParallelN64.R4300.Device

/-!
# Instructions and calls

An instruction is carried out as a list of calls in the order of its source. What a program
computes is left open: an instruction comes with its operands, a memory access with the
device register it reaches or the TLB miss it meets, and the start of a signal processor
task with what the plugin does.
-/

namespace ParallelN64.R4300

/-- What a run of the plugin leaves in the registers it can write. -/
structure PluginRun where
  miIntr : Word
  spRegs : SpReg → Word
  spPc : Word
  dpcRegs : DpcReg → Word

/-- A task of the signal processor: its type in data memory, and the plugin's run. -/
structure SpTask where
  type : Word
  run : PluginRun

/-- An access to a device register that changes control state. The last two stand for the
accesses to the disk drive that ask for its interrupt and that acknowledge it. -/
inductive DeviceAccess where
  | writeMiInitMode (value mask : Word)
  | writeMiIntrMask (value mask : Word)
  | writeRspRegs (reg : SpReg) (value mask : Word) (task : SpTask)
  | writeRspRegs2 (reg : SpReg2) (value mask : Word)
  | readSpSemaphore
  | writeDpcRegs (reg : DpcReg) (value mask : Word) (task : SpTask)
  | writeDpsRegs (reg : DpsReg) (value mask : Word)
  | writePiRegs (reg : PiReg) (value mask : Word)
  | writeSiRegs (reg : SiReg) (value mask : Word)
  | writePifCommand
  | writeAiRegs (reg : AiReg) (value mask : Word)
  | readAiLen
  | writeViRegs (reg : ViReg) (value mask : Word)
  | readViCurrent
  | ddRaise
  | ddPiTest

/-- The page pair of a TLB entry, as the refill handler looks at it. -/
structure TlbPages where
  startEven : Word
  endEven : Word
  startOdd : Word
  endOdd : Word

/-- The access that missed the TLB. -/
inductive TlbAccess where
  | read
  | write
  | fetch
  deriving DecidableEq

/-- A miss, with the TLB entries at that time. -/
structure TlbMiss where
  entries : List TlbPages
  address : Word
  access : TlbAccess

/-- What one memory access of an instruction does. -/
inductive MemoryAccess where
  | device (access : DeviceAccess)
  | tlbMiss (miss : TlbMiss)

/-- A jump or branch with its operands. -/
structure Jump where
  target : Word
  take : Bool
  likely : Bool

/-- What an instruction does besides computing. -/
inductive Operation where
  | memory (accesses : List MemoryAccess)
  | reserved
  | jump (jump : Jump)
  | jumpIdle (jump : Jump)
  | syscall
  | eret
  | tlbwr
  | mfc0 (reg : Cp0Reg)
  | mtc0 (reg : Cp0Reg) (value : Word)

/-- An instruction, and whether it needs coprocessor 1. -/
structure Instruction where
  cop1 : Bool
  op : Operation

/-- The events that end a transfer or a task. -/
inductive Transfer where
  | sp
  | dp
  | si
  | pi
  deriving DecidableEq

/-- The type of the event that ends a transfer. -/
def Transfer.type : Transfer → EventType
  | .sp => .spInt
  | .dp => .dpInt
  | .si => .siInt
  | .pi => .piInt

/-- One call, or one group of assignments, in the body of a function. -/
inductive Call where
  | begin (instruction : Instruction)
  | interpretOpcode
  | addToPc (bytes : Word)
  | updateCount
  | checkInterrupt
  | poll
  | access (access : DeviceAccess)
  | tlbRefill (miss : TlbMiss)
  | cop1Unusable
  | syscall
  | exceptionGeneral
  | raiseTimer
  | raiseRcp (miIntr : Word)
  | signalRcp (miIntr : Word)
  | addEvent (transfer : Transfer) (delay : Word)
  | doSpTask (task : SpTask)
  | lockTask
  | setTaskLocked
  | piEnd
  | setStop
  | setDelaySlot (on : Bool)
  | endJump (jump : Jump)
  | setLastAddr
  | idle (jump : Jump)
  | setUnsafe (on : Bool)
  | writeCount (value : Word)
  | writeCompare (value : Word)
  | writeStatus (value : Word)
  | writeCause (value : Word)
  | writeCp0 (reg : Cp0Reg) (value : Word)
  | setRandom
  | returnFromException

/-- The body of a jump. -/
def Jump.body (j : Jump) : List Call :=
  if !j.likely || j.take then
    [.addToPc 4#32, .setDelaySlot true, .interpretOpcode, .updateCount, .setDelaySlot false,
      .endJump j, .setLastAddr, .poll]
  else [.addToPc 8#32, .updateCount, .setLastAddr, .poll]

def MemoryAccess.call : MemoryAccess → Call
  | .device access => .access access
  | .tlbMiss miss => .tlbRefill miss

/-- The body of MTC0. -/
def mtc0Body (reg : Cp0Reg) (value : Word) : List Call :=
  match reg with
  | .count =>
    [.updateCount, .setUnsafe true, .poll, .setUnsafe false, .writeCount value, .addToPc 4#32]
  | .compare => [.updateCount, .writeCompare value, .addToPc 4#32]
  | .status =>
    [.writeStatus value, .updateCount, .addToPc 4#32, .checkInterrupt, .setUnsafe true, .poll,
      .setUnsafe false, .addToPc (-4#32), .addToPc 4#32]
  | .cause => [.writeCause value, .addToPc 4#32]
  | reg => [.writeCp0 reg value, .addToPc 4#32]

def mfc0Body : Cp0Reg → List Call
  | .random => [.updateCount, .setRandom, .addToPc 4#32]
  | .count => [.updateCount, .addToPc 4#32]
  | _ => [.addToPc 4#32]

/-- The body of an instruction. -/
def Operation.body : Operation → List Call
  | .memory accesses => .addToPc 4#32 :: accesses.map MemoryAccess.call
  | .reserved => [.setStop]
  | .jump j => j.body
  | .jumpIdle j => if j.take then [.updateCount, .idle j] else j.body
  | .syscall => [.syscall]
  | .eret => [.updateCount, .returnFromException, .checkInterrupt, .setLastAddr, .poll]
  | .tlbwr => [.updateCount, .setRandom, .addToPc 4#32]
  | .mfc0 reg => mfc0Body reg
  | .mtc0 reg value => mtc0Body reg value

end ParallelN64.R4300
