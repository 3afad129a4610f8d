import ParallelN64.Core.BigEndian
import ParallelN64.R4300.Memory

/-!
# Loads and stores

The instructions that access memory, as the pure interpreter carries them out. A load gives
`rdword` a place to store to, so a miss leaves that place alone, and what follows the access
asks the global `address` whether it was one. The left and right parts of words and
doublewords are four functions of a size each.
-/

namespace ParallelN64.R4300

open ParallelN64.Core

/-- The instructions that access memory. -/
inductive MemoryOp where
  | ldl | ldr | lb | lh | lwl | lw | lbu | lhu | lwr | lwu
  | sb | sh | swl | sw | sdl | sdr | swr
  | ll | lwc1 | ldc1 | ld | sc | swc1 | sdc1 | sd
  deriving DecidableEq

/-- An instruction with its fields. -/
structure MemoryInstruction where
  op : MemoryOp
  base : BitVec 5
  rt : BitVec 5
  offset : BitVec 16

/-- `SE8`, `SE16` and `SE32`. -/
def se8 (a : BitVec 64) : BitVec 64 := (a.setWidth 8).signExtend 64
def se16 (a : BitVec 64) : BitVec 64 := (a.setWidth 16).signExtend 64
def se32 (a : BitVec 64) : BitVec 64 := (a.setWidth 32).signExtend 64

/-- The two sizes that have left and right parts. -/
inductive Size where
  | word | dword

namespace Size

def bytes : Size → Nat
  | word => 4
  | dword => 8

def bits : Size → Nat
  | word => 32
  | dword => 64

def width : Size → Width
  | word => .word
  | dword => .dword

def low : Size → Word
  | word => 3#32
  | dword => 7#32

def aligned : Size → Word
  | word => 0xFFFFFFFC#32
  | dword => 0xFFFFFFF8#32

def extend (z : Size) (value : BitVec 64) : BitVec 64 := (value.setWidth z.bits).signExtend 64

end Size

section Processor

variable {ρ μ : Type} (b : Board ρ μ) (s : Cpu ρ μ) (i : MemoryInstruction)

/-- `lsaddr`, and `lslfaddr` of the loads and stores of coprocessor 1. -/
def Cpu.lsaddr : Word := (s.gpr i.base).setWidth 32 + i.offset.signExtend 32

/-- `ADD_TO_PC(1)`. -/
def Cpu.addToPc : Cpu ρ μ := { s with device := { s.device with pc := s.device.pc + 4#32 } }

def Cpu.setGpr (rt : BitVec 5) (value : BitVec 64) : Cpu ρ μ :=
  { s with gpr := Function.update s.gpr rt value }

def Cpu.setFpr (ft : BitVec 5) (value : BitVec 64) : Cpu ρ μ :=
  { s with fpr := Function.update s.fpr ft value }

def Cpu.fprsWhole : Bool := s.device.status &&& cp0StatusFR ≠ 0#32

/-- Where `reg_cop1_double` points to. -/
def Cpu.regCop1Double (ft : BitVec 5) : BitVec 5 := if s.fprsWhole then ft else ft >>> 1

/-- Where `reg_cop1_simple` points to, as the first bit there. -/
def Cpu.regCop1Simple (ft : BitVec 5) : BitVec 5 × Nat :=
  if s.fprsWhole then (ft, 0) else (ft >>> 1, 32 * (ft &&& 1#5).toNat)

def Cpu.simple (ft : BitVec 5) : Word :=
  (s.fpr (s.regCop1Simple ft).1).extractLsb' (s.regCop1Simple ft).2 32

def Cpu.setSimple (ft : BitVec 5) (value : Word) : Cpu ρ μ :=
  let (r, first) := s.regCop1Simple ft
  s.setFpr r
    ((s.fpr r &&& ~~~(0xFFFFFFFF#64 <<< first)) ||| (value.setWidth 64 <<< first))

/-- `check_cop1_unusable` finds that it is. -/
def Cpu.cop1Unusable : Bool := s.device.status &&& cp0StatusCU1 = 0#32

def Cpu.raiseCop1Unusable : Cpu ρ μ := { s with device := s.device.cop1UnusableException b.cfg }

/-- A read into a register, which is extended if the read was no miss. -/
def Cpu.load (width : Width) (extend : BitVec 64 → BitVec 64) (address : Word) (rt : BitVec 5) :
    Cpu ρ μ :=
  let r := s.readInMemory b width address (s.gpr rt)
  let s := r.cpu.setGpr rt r.rdword
  if r.address ≠ 0#32 then s.setGpr rt (extend (s.gpr rt)) else s

def Cpu.lb : Cpu ρ μ := s.addToPc.load b .byte se8 (s.lsaddr i) i.rt
def Cpu.lh : Cpu ρ μ := s.addToPc.load b .hword se16 (s.lsaddr i) i.rt
def Cpu.lw : Cpu ρ μ := s.addToPc.load b .word se32 (s.lsaddr i) i.rt
def Cpu.lbu : Cpu ρ μ := s.addToPc.load b .byte id (s.lsaddr i) i.rt
def Cpu.lhu : Cpu ρ μ := s.addToPc.load b .hword id (s.lsaddr i) i.rt
def Cpu.lwu : Cpu ρ μ := s.addToPc.load b .word id (s.lsaddr i) i.rt
def Cpu.ld : Cpu ρ μ := s.addToPc.load b .dword id (s.lsaddr i) i.rt

def Cpu.sb : Cpu ρ μ := s.addToPc.writeInMemory b .byte (s.lsaddr i) (s.gpr i.rt)
def Cpu.sh : Cpu ρ μ := s.addToPc.writeInMemory b .hword (s.lsaddr i) (s.gpr i.rt)
def Cpu.sw : Cpu ρ μ := s.addToPc.writeInMemory b .word (s.lsaddr i) (s.gpr i.rt)
def Cpu.sd : Cpu ρ μ := s.addToPc.writeInMemory b .dword (s.lsaddr i) (s.gpr i.rt)

def Cpu.ll : Cpu ρ μ :=
  let r := s.addToPc.readInMemory b .word (s.lsaddr i) (s.gpr i.rt)
  let s := r.cpu.setGpr i.rt r.rdword
  if r.address ≠ 0#32 then { s.setGpr i.rt (se32 (s.gpr i.rt)) with llbit := true } else s

/-- The store is not asked whether it was a miss. -/
def Cpu.sc : Cpu ρ μ :=
  let lsaddr := s.lsaddr i
  let s := s.addToPc
  if s.llbit then
    { s.writeInMemory b .word lsaddr (s.gpr i.rt) with llbit := false }.setGpr i.rt 1#64
  else s.setGpr i.rt 0#64

def Cpu.lwc1 : Cpu ρ μ :=
  if s.cop1Unusable then s.raiseCop1Unusable b
  else
    let r := s.addToPc.readInMemory b .word (s.lsaddr i) 0#64
    if r.address ≠ 0#32 then r.cpu.setSimple i.rt (r.rdword.setWidth 32) else r.cpu

def Cpu.ldc1 : Cpu ρ μ :=
  if s.cop1Unusable then s.raiseCop1Unusable b
  else
    let ft := s.regCop1Double i.rt
    let r := s.addToPc.readInMemory b .dword (s.lsaddr i) (s.fpr ft)
    r.cpu.setFpr ft r.rdword

def Cpu.swc1 : Cpu ρ μ :=
  if s.cop1Unusable then s.raiseCop1Unusable b
  else s.addToPc.writeInMemory b .word (s.lsaddr i) ((s.simple i.rt).setWidth 64)

def Cpu.sdc1 : Cpu ρ μ :=
  if s.cop1Unusable then s.raiseCop1Unusable b
  else s.addToPc.writeInMemory b .dword (s.lsaddr i) (s.fpr (s.regCop1Double i.rt))

/-- The part of a word from an address on is loaded into the high bytes. -/
def Cpu.loadLeft (z : Size) : Cpu ρ μ :=
  let lsaddr := s.lsaddr i
  let offset := (lsaddr &&& z.low).toNat
  let s := s.addToPc
  if lsaddr &&& z.low = 0#32 then s.load b z.width z.extend lsaddr i.rt
  else
    let r := s.readInMemory b z.width (lsaddr &&& z.aligned) 0#64
    if r.address ≠ 0#32 then
      let old := (r.cpu.gpr i.rt).setWidth z.bits
      let word := r.rdword.setWidth z.bits
      r.cpu.setGpr i.rt
        (((old &&& bitsBelow z.bits (offset * 8)) ||| (word <<< (offset * 8))).signExtend 64)
    else r.cpu

/-- The part of a word up to an address is loaded into the low bytes. -/
def Cpu.loadRight (z : Size) : Cpu ρ μ :=
  let lsaddr := s.lsaddr i
  let offset := (lsaddr &&& z.low).toNat
  let s := s.addToPc
  if lsaddr &&& z.low = z.low then s.load b z.width z.extend (lsaddr &&& z.aligned) i.rt
  else
    let r := s.readInMemory b z.width (lsaddr &&& z.aligned) 0#64
    if r.address ≠ 0#32 then
      let old := (r.cpu.gpr i.rt).setWidth z.bits
      let word := r.rdword.setWidth z.bits
      r.cpu.setGpr i.rt
        (((old &&& bitsAbove z.bits ((offset + 1) * 8)) |||
          (word >>> ((z.bytes - 1 - offset) * 8))).signExtend 64)
    else r.cpu

/-- The high bytes are stored to the part of a word from an address on. -/
def Cpu.storeLeft (z : Size) : Cpu ρ μ :=
  let lsaddr := s.lsaddr i
  let offset := (lsaddr &&& z.low).toNat
  let s := s.addToPc
  if lsaddr &&& z.low = 0#32 then s.writeInMemory b z.width lsaddr (s.gpr i.rt)
  else
    let r := s.readInMemory b z.width (lsaddr &&& z.aligned) 0#64
    if r.address ≠ 0#32 then
      let old := r.rdword.setWidth z.bits
      let value := (r.cpu.gpr i.rt).setWidth z.bits
      -- `address` is physical by now, and is written to as it is.
      r.cpu.writeInMemory b z.width r.address
        (((old &&& bitsAbove z.bits ((z.bytes - offset) * 8)) |||
          (value >>> (offset * 8))).setWidth 64)
    else r.cpu

/-- The low bytes are stored to the part of a word up to an address. -/
def Cpu.storeRight (z : Size) : Cpu ρ μ :=
  let lsaddr := s.lsaddr i
  let offset := (lsaddr &&& z.low).toNat
  let s := s.addToPc
  if lsaddr &&& z.low = z.low then s.writeInMemory b z.width (lsaddr &&& z.aligned) (s.gpr i.rt)
  else
    let r := s.readInMemory b z.width (lsaddr &&& z.aligned) 0#64
    if r.address ≠ 0#32 then
      let old := r.rdword.setWidth z.bits
      let value := (r.cpu.gpr i.rt).setWidth z.bits
      r.cpu.writeInMemory b z.width r.address
        (((old &&& bitsBelow z.bits ((z.bytes - 1 - offset) * 8)) |||
          (value <<< ((z.bytes - 1 - offset) * 8))).setWidth 64)
    else r.cpu

def MemoryOp.writesGpr : MemoryOp → Bool
  | .ldl | .ldr | .lb | .lh | .lwl | .lw | .lbu | .lhu | .lwr | .lwu | .ll | .ld | .sc => true
  | _ => false

def MemoryInstruction.dropped : Bool := i.op.writesGpr && i.rt = 0#5

/-- What `InterpretOpcode` does with an instruction. -/
def Cpu.execute : Cpu ρ μ :=
  if i.dropped then s.addToPc
  else
    match i.op with
    | .ldl => s.loadLeft b i .dword
    | .ldr => s.loadRight b i .dword
    | .lb => s.lb b i
    | .lh => s.lh b i
    | .lwl => s.loadLeft b i .word
    | .lw => s.lw b i
    | .lbu => s.lbu b i
    | .lhu => s.lhu b i
    | .lwr => s.loadRight b i .word
    | .lwu => s.lwu b i
    | .sb => s.sb b i
    | .sh => s.sh b i
    | .swl => s.storeLeft b i .word
    | .sw => s.sw b i
    | .sdl => s.storeLeft b i .dword
    | .sdr => s.storeRight b i .dword
    | .swr => s.storeRight b i .word
    | .ll => s.ll b i
    | .lwc1 => s.lwc1 b i
    | .ldc1 => s.ldc1 b i
    | .ld => s.ld b i
    | .sc => s.sc b i
    | .swc1 => s.swc1 b i
    | .sdc1 => s.sdc1 b i
    | .sd => s.sd b i

end Processor

/-- A board with nothing outside of RDRAM. -/
def sampleBoard : Board Unit Unit where
  cfg := sampleConfig
  hacks := ⟨.normalRom, 0x45#16⟩
  handlers :=
    ⟨fun _ _ reached _ => (0#64, reached), fun _ _ _ reached memory => (reached, memory),
      fun _ _ => none⟩

def emptyTranslation : Translation := ⟨Tlb.poweronTlb, Tlb.leads_poweronTlb⟩

/-- A processor with an address of RDRAM in r1, another value in r2, and LLbit set. -/
def sampleCpu : Cpu Unit Unit where
  device := blankDevice
  regs := ()
  memory := ⟨fun i => if i = 0#21 then 0x01234567#32 else 0x89ABCDEF#32, ()⟩
  gpr r := if r = 1#5 then 0x80000000#64 else if r = 2#5 then 0x1122334455667788#64 else 0#64
  fpr _ := 0#64
  llbit := true
  tlb := emptyTranslation

end ParallelN64.R4300
